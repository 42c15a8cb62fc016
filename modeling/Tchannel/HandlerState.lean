import Tchannel.CodecError
import Tchannel.SubChannel
import Tchannel.Lib.Locked

/-!
# Handlers with a state

`handler.rs` once more, with what its handlers are changed by: both traits have `handle` take `&mut self`. A sync
handler is done when it is called. An async one returns a future that borrows it, and is polled until the result is
there; between two polls it is left as the last one left it. `SubChannel` of `SubChannel.lean` has a handler as it is
at one time (`BoxedHandler.Freezes`).
-/

namespace Tchannel
open Wire

/-- `RequestHandler::handle`, with the handler before and after. -/
abbrev RequestHandlerMut (σ REQ RES : Type) := σ → REQ → HandlerResult RES × σ

/-- `RequestHandlerAsync::handle`; `φ` are its futures. -/
abbrev RequestHandlerAsync (σ φ REQ RES : Type) := Service σ REQ (HandlerResult RES) φ

/-- What the two adapters give. Their futures still have the args at first. -/
abbrev HandlerService (σ φ : Type) := Service σ MessageArgs MessageArgsResponse (MessageArgs ⊕ φ)

section

variable {σ φ REQ RES : Type} [Message REQ] [Message RES]

namespace RequestHandlerAdapter

def handleMut (handler : RequestHandlerMut σ REQ RES) (self : σ) (requestArgs : MessageArgs) :
    MessageArgsResponse × σ :=
  match (Message.tryFrom requestArgs : CodecResult REQ) with
  | .ok request => (convert (handler self request).1, (handler self request).2)
  | .error e => (.error (.codecError e), self)

/-- The future is ready. -/
def service (φ : Type) (handler : RequestHandlerMut σ REQ RES) : HandlerService σ φ where
  start := .inl
  poll self future self' out := ∃ args, future = .inl args ∧
    self' = (handleMut handler self args).2 ∧ out = .inr (handleMut handler self args).1

end RequestHandlerAdapter

namespace RequestHandlerAsyncAdapter

/-- A poll of the handler's future. -/
def pollInner (handler : RequestHandlerAsync σ φ REQ RES) (self : σ) (future : φ) (self' : σ)
    (out : (MessageArgs ⊕ φ) ⊕ MessageArgsResponse) : Prop :=
  ∃ inner, handler.poll self future self' inner ∧ out = inner.map .inr convert

def service (handler : RequestHandlerAsync σ φ REQ RES) : HandlerService σ φ where
  start := .inl
  poll self future self' out :=
    match future with
    | .inl requestArgs =>
      match (Message.tryFrom requestArgs : CodecResult REQ) with
      | .ok request => pollInner handler self (handler.start request) self' out
      | .error e => self' = self ∧ out = .inr (.error (.codecError e))
    | .inr future => pollInner handler self future self' out

end RequestHandlerAsyncAdapter

/-- The two adapters, with what the handler itself does with a request. -/
inductive Adapts (REQ RES : Type) [Message REQ] [Message RES] (service : HandlerService σ φ)
    (handles : REQ → σ → HandlerResult RES → σ → Prop) : Prop
  | sync (handler : RequestHandlerMut σ REQ RES) (hservice : service = RequestHandlerAdapter.service φ handler)
      (hhandles : ∀ request self result self', handles request self result self' ↔
        handler self request = (result, self'))
  | async (handler : RequestHandlerAsync σ φ REQ RES) (hservice : service = RequestHandlerAsyncAdapter.service handler)
      (hhandles : ∀ request self result self', handles request self result self' ↔
        handler.Returns request self result self')

end

/-- A boxed handler. There are no others than the two adapters. -/
structure BoxedHandler (σ φ : Type) where
  service : HandlerService σ φ
  adapts : ∃ (REQ RES : Type) (_ : Message REQ) (_ : Message RES) (handles : REQ → σ → HandlerResult RES → σ → Prop),
    Adapts REQ RES service handles

/-- The handler at some time, or several: what it makes of a request that it can be done with. -/
def BoxedHandler.Freezes {σ φ : Type} (self : BoxedHandler σ φ) (handler : MessageArgsHandler) : Prop :=
  ∀ args s o s', self.service.Returns args s o s' → ∃ t t', self.service.Returns args t (handler.handle args) t'

variable {σ φ REQ RES : Type} [Message REQ] [Message RES]

namespace RequestHandlerAdapter

variable {handler : RequestHandlerMut σ REQ RES} {self self' : σ} {args : MessageArgs}

theorem handleMut_ok {request : REQ} (h : Message.tryFrom args = .ok request) :
    handleMut handler self args = (convert (handler self request).1, (handler self request).2) := by
  rw [handleMut, h]

theorem handleMut_error {e : CodecError} (h : (Message.tryFrom args : CodecResult REQ) = .error e) :
    handleMut handler self args = (.error (.codecError e), self) := by
  rw [handleMut, h]

theorem serves {future : MessageArgs ⊕ φ} (h : (service φ handler).Serves args self future self') :
    future = .inl args ∧ self' = self := by
  cases h with
  | start => exact ⟨rfl, rfl⟩
  | poll _ hpoll =>
    obtain ⟨_, -, -, hout⟩ := hpoll
    cases hout

theorem returns_iff {o : MessageArgsResponse} :
    (service φ handler).Returns args self o self' ↔ handleMut handler self args = (o, self') := by
  constructor
  · rintro ⟨future, t, hserves, args', hfuture, hself, hout⟩
    obtain ⟨rfl, rfl⟩ := serves hserves
    obtain rfl := Sum.inl.inj hfuture
    rw [hself, Sum.inr.inj hout]
  · intro h
    refine ⟨_, self, .start, args, rfl, ?_, ?_⟩
    · rw [h]
    · rw [h]

theorem total (handler : RequestHandlerMut σ REQ RES) : (service φ handler).Total := by
  intro args s future s' hserves
  obtain ⟨rfl, rfl⟩ := serves hserves
  exact ⟨_, _, args, rfl, rfl, rfl⟩

theorem ends (handler : RequestHandlerMut σ REQ RES) : (service φ handler).Ends := by
  refine ⟨fun a => Acc.intro a fun b ⟨_, hpoll⟩ => ?_⟩
  obtain ⟨_, -, -, hout⟩ := hpoll
  cases hout

end RequestHandlerAdapter

namespace RequestHandlerAsyncAdapter

variable {handler : RequestHandlerAsync σ φ REQ RES} {self self' : σ} {args : MessageArgs} {request : REQ}

theorem poll_ok (h : Message.tryFrom args = .ok request) {out : (MessageArgs ⊕ φ) ⊕ MessageArgsResponse} :
    (service handler).poll self (.inl args) self' out ↔
      pollInner handler self (handler.start request) self' out := by
  simp only [service, h]

theorem poll_error {e : CodecError} (h : (Message.tryFrom args : CodecResult REQ) = .error e)
    {out : (MessageArgs ⊕ φ) ⊕ MessageArgsResponse} :
    (service handler).poll self (.inl args) self' out ↔ self' = self ∧ out = .inr (.error (.codecError e)) := by
  simp only [service, h]

theorem serves {future : MessageArgs ⊕ φ} (h : (service handler).Serves args self future self') :
    (future = .inl args ∧ self' = self) ∨
      ∃ request inner, future = .inr inner ∧ Message.tryFrom args = .ok request ∧
        handler.Serves request self inner self' := by
  induction h with
  | start => exact .inl ⟨rfl, rfl⟩
  | @poll f f' t t' _ hpoll ih =>
    rcases ih with ⟨rfl, rfl⟩ | ⟨request, inner, rfl, hfrom, hserves⟩
    · cases hfrom : (Message.tryFrom args : CodecResult REQ) with
      | error e =>
        obtain ⟨-, hout⟩ := (poll_error hfrom).1 hpoll
        cases hout
      | ok request =>
        obtain ⟨inner | _, hinner, hout⟩ := (poll_ok hfrom).1 hpoll
        · exact .inr ⟨request, inner, Sum.inl.inj hout, rfl, .poll .start hinner⟩
        · cases hout
    · obtain ⟨inner' | _, hinner, hout⟩ := hpoll
      · exact .inr ⟨request, inner', Sum.inl.inj hout, hfrom, .poll hserves hinner⟩
      · cases hout

theorem serves_of_inner {inner : φ} (hfrom : Message.tryFrom args = .ok request)
    (h : handler.Serves request self inner self') :
    (inner = handler.start request ∧ self' = self) ∨ (service handler).Serves args self (.inr inner) self' := by
  induction h with
  | start => exact .inl ⟨rfl, rfl⟩
  | poll _ hpoll ih =>
    rcases ih with ⟨rfl, rfl⟩ | ih
    · exact .inr (.poll .start ((poll_ok hfrom).2 ⟨_, hpoll, rfl⟩))
    · exact .inr (.poll ih ⟨_, hpoll, rfl⟩)

theorem returns_ok (hfrom : Message.tryFrom args = .ok request) {o : MessageArgsResponse} :
    (service handler).Returns args self o self' ↔ ∃ result, handler.Returns request self result self' ∧ o = convert result := by
  constructor
  · rintro ⟨future, t, hserves, hpoll⟩
    rcases serves hserves with ⟨rfl, rfl⟩ | ⟨request', inner, rfl, hfrom', hinner⟩
    · obtain ⟨_ | result, hinner, hout⟩ := (poll_ok hfrom).1 hpoll
      · cases hout
      · exact ⟨result, ⟨_, t, .start, hinner⟩, Sum.inr.inj hout⟩
    · obtain rfl := Except.ok.inj (hfrom.symm.trans hfrom')
      obtain ⟨_ | result, hpoll, hout⟩ := hpoll
      · cases hout
      · exact ⟨result, ⟨inner, t, hinner, hpoll⟩, Sum.inr.inj hout⟩
  · rintro ⟨result, ⟨inner, t, hserves, hpoll⟩, rfl⟩
    rcases serves_of_inner hfrom hserves with ⟨rfl, rfl⟩ | hserves
    · exact ⟨_, t, .start, (poll_ok hfrom).2 ⟨_, hpoll, rfl⟩⟩
    · exact ⟨_, t, hserves, _, hpoll, rfl⟩

theorem returns_error {e : CodecError} (hfrom : (Message.tryFrom args : CodecResult REQ) = .error e)
    {o : MessageArgsResponse} :
    (service handler).Returns args self o self' ↔ o = .error (.codecError e) ∧ self' = self := by
  constructor
  · rintro ⟨future, t, hserves, hpoll⟩
    rcases serves hserves with ⟨rfl, rfl⟩ | ⟨request', inner, rfl, hfrom', -⟩
    · obtain ⟨rfl, hout⟩ := (poll_error hfrom).1 hpoll
      exact ⟨Sum.inr.inj hout, rfl⟩
    · rw [hfrom] at hfrom'
      cases hfrom'
  · rintro ⟨rfl, rfl⟩
    exact ⟨_, self', .start, (poll_error hfrom).2 ⟨rfl, rfl⟩⟩

theorem total (htotal : handler.Total) : (service handler).Total := by
  intro args s future s' hserves
  have hinner : ∀ request f, handler.Serves request s f s' → ∃ s'' out, pollInner handler s' f s'' out := by
    intro request f hserves
    obtain ⟨s'', out, hpoll⟩ := htotal request s f s' hserves
    exact ⟨s'', _, out, hpoll, rfl⟩
  rcases serves hserves with ⟨rfl, rfl⟩ | ⟨request, f, rfl, -, hserves⟩
  · cases hfrom : (Message.tryFrom args : CodecResult REQ) with
    | ok request =>
      obtain ⟨s'', out, hpoll⟩ := hinner request _ .start
      exact ⟨s'', out, (poll_ok hfrom).2 hpoll⟩
    | error e => exact ⟨s', _, (poll_error hfrom).2 ⟨rfl, rfl⟩⟩
  · exact hinner request f hserves

theorem ends (hends : handler.Ends) : (service handler).Ends := by
  have hinner : ∀ a : σ × φ, Acc (fun b a : σ × (MessageArgs ⊕ φ) =>
      (∃ x s, (service handler).Serves x s a.2 a.1) ∧ (service handler).poll a.1 a.2 b.1 (.inl b.2)) (a.1, .inr a.2) := by
    intro a
    induction a using hends.induction with
    | _ a ih =>
      refine Acc.intro _ fun ⟨s', future⟩ ⟨⟨args, s, hserves⟩, hpoll⟩ => ?_
      obtain ⟨_, hfuture⟩ | ⟨request, f, hf, -, hserves⟩ := serves hserves
      · cases ‹Sum.inr a.2 = Sum.inl args›
      obtain rfl := Sum.inr.inj hf
      obtain ⟨f' | result, hinner, hout⟩ := hpoll
      · obtain rfl := Sum.inl.inj hout
        exact ih (s', f') ⟨⟨request, s, hserves⟩, hinner⟩
      · cases hout
  refine ⟨fun ⟨s, future⟩ => ?_⟩
  cases future with
  | inr f => exact hinner (s, f)
  | inl args =>
    refine Acc.intro _ fun ⟨s', future⟩ ⟨_, hpoll⟩ => ?_
    cases hfrom : (Message.tryFrom args : CodecResult REQ) with
    | ok request =>
      obtain ⟨f' | result, -, hout⟩ := (poll_ok hfrom).1 hpoll
      · obtain rfl := Sum.inl.inj hout
        exact hinner (s', f')
      · cases hout
    | error e =>
      obtain ⟨-, hout⟩ := (poll_error hfrom).1 hpoll
      cases hout

end RequestHandlerAsyncAdapter

namespace Adapts

variable {service : HandlerService σ φ} {handles : REQ → σ → HandlerResult RES → σ → Prop} {self self' : σ}
  {args : MessageArgs} {o : MessageArgsResponse}

/-- What an adapter makes of args that are a request. -/
theorem returns_ok (h : Adapts REQ RES service handles) {request : REQ} (hfrom : Message.tryFrom args = .ok request) :
    service.Returns args self o self' ↔ ∃ result, handles request self result self' ∧ o = convert result := by
  cases h with
  | sync handler hservice hhandles =>
    rw [hservice, RequestHandlerAdapter.returns_iff, RequestHandlerAdapter.handleMut_ok hfrom]
    simp only [hhandles]
    constructor
    · intro h
      obtain ⟨rfl, rfl⟩ := Prod.mk.inj h
      exact ⟨_, rfl, rfl⟩
    · rintro ⟨result, heq, rfl⟩
      rw [heq]
  | async handler hservice hhandles =>
    rw [hservice, RequestHandlerAsyncAdapter.returns_ok hfrom]
    simp only [hhandles]

theorem returns_error (h : Adapts REQ RES service handles) {e : CodecError}
    (hfrom : (Message.tryFrom args : CodecResult REQ) = .error e) :
    service.Returns args self o self' ↔ o = .error (.codecError e) ∧ self' = self := by
  cases h with
  | sync handler hservice hhandles =>
    rw [hservice, RequestHandlerAdapter.returns_iff, RequestHandlerAdapter.handleMut_error hfrom, Prod.mk_inj, eq_comm,
      @eq_comm _ self]
  | async handler hservice hhandles =>
    rw [hservice, RequestHandlerAsyncAdapter.returns_error hfrom]

theorem freezes (h : Adapts REQ RES service handles) {f : RequestHandler REQ RES}
    (hf : ∀ request, (∃ s result s', handles request s result s') → ∃ s s', handles request s (f request) s')
    (hreturns : service.Returns args self o self') :
    ∃ t t', service.Returns args t (RequestHandlerAdapter.handle f args) t' := by
  rw [RequestHandlerAdapter.handle]
  cases hfrom : (Message.tryFrom args : CodecResult REQ) with
  | ok request =>
    obtain ⟨result, hhandles, -⟩ := (h.returns_ok hfrom).1 hreturns
    obtain ⟨t, t', hcan⟩ := hf request ⟨self, result, self', hhandles⟩
    exact ⟨t, t', (h.returns_ok hfrom).2 ⟨_, hcan, rfl⟩⟩
  | error e => exact ⟨self, self, (h.returns_error hfrom).2 ⟨rfl, rfl⟩⟩

end Adapts

theorem exists_requestHandler {REQ RES : Type} (handles : REQ → σ → HandlerResult RES → σ → Prop) :
    ∃ f : RequestHandler REQ RES,
      ∀ request, (∃ s result s', handles request s result s') → ∃ s s', handles request s (f request) s' := by
  have hchoice : ∀ request, ∃ result,
      (∃ s result s', handles request s result s') → ∃ s s', handles request s result s' := by
    intro request
    by_cases hcan : ∃ s result s', handles request s result s'
    · obtain ⟨s, result, s', hhandles⟩ := hcan
      exact ⟨result, fun _ => ⟨s, s', hhandles⟩⟩
    · exact ⟨.error (.generalError ""), fun h => absurd h hcan⟩
  choose f hf using hchoice
  exact ⟨f, hf⟩

namespace BoxedHandler

variable {self : BoxedHandler σ φ} {args : MessageArgs} {o : MessageArgsResponse} {s s' : σ}

theorem exists_frozen (self : BoxedHandler σ φ) : ∃ handler, self.Freezes handler := by
  obtain ⟨REQ, RES, _, _, handles, hadapts⟩ := self.adapts
  obtain ⟨f, hf⟩ := exists_requestHandler handles
  exact ⟨⟨RequestHandlerAdapter.handle f, REQ, RES, _, _, f, rfl⟩, fun _ _ _ _ => hadapts.freezes hf⟩

/-- A response that the handler has given is one of a frozen handler. -/
theorem exists_freezes (h : self.service.Returns args s o s') :
    ∃ handler, handler.handle args = o ∧ self.Freezes handler := by
  classical
  obtain ⟨REQ, RES, _, _, handles, hadapts⟩ := self.adapts
  obtain ⟨f, hf⟩ := exists_requestHandler handles
  cases hfrom : (Message.tryFrom args : CodecResult REQ) with
  | ok request =>
    obtain ⟨result, hhandles, rfl⟩ := (hadapts.returns_ok hfrom).1 h
    have hf' : ∀ request', (∃ s result s', handles request' s result s') →
        ∃ s s', handles request' s (Function.update f request result request') s' := by
      intro request' hcan
      rcases eq_or_ne request' request with rfl | hne
      · rw [Function.update_self]
        exact ⟨s, s', hhandles⟩
      · rw [Function.update_of_ne hne]
        exact hf request' hcan
    refine ⟨⟨RequestHandlerAdapter.handle (Function.update f request result), REQ, RES, _, _, _, rfl⟩, ?_,
      fun _ _ _ _ => hadapts.freezes hf'⟩
    show RequestHandlerAdapter.handle _ args = _
    rw [RequestHandlerAdapter.handle, hfrom]
    exact congrArg convert (Function.update_self request result f)
  | error e =>
    obtain ⟨rfl, rfl⟩ := (hadapts.returns_error hfrom).1 h
    refine ⟨⟨RequestHandlerAdapter.handle f, REQ, RES, _, _, f, rfl⟩, ?_, fun _ _ _ _ => hadapts.freezes hf⟩
    show RequestHandlerAdapter.handle _ args = _
    rw [RequestHandlerAdapter.handle, hfrom]
    rfl

end BoxedHandler

end Tchannel
