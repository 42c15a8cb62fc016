import Tchannel.ClientSends
import Tchannel.Responses

/-!
# What calls return

While `FrameSender` is there and the ids last, a call fails before it reads only if its request has no frames.
Else it returns what reading the frames it received comes to, as soon as these frames are enough
(`ClientConnection.outcomes`): its channel is never closed while it reads.
-/

namespace Tchannel
open Wire

/-- What the call has returned, or returns once its id is deregistered. -/
def ClientPhase.result : ClientPhase → Option (TResult Unit)
  | .closing result _ | .closingAgain result | .returned result => some result
  | _ => none

theorem ClientPhase.isReading_of_result {phase : ClientPhase} {result : TResult Unit}
    (h : phase.result = some result) : phase.isReading = false := by
  cases phase <;> first | rfl | cases h

theorem ClientPhase.panicked_or_result {phase : ClientPhase} (h : phase.isReading = false) :
    phase = .panicked ∨ ∃ result, phase.result = some result := by
  cases phase <;> first | exact .inr ⟨_, rfl⟩ | exact .inl rfl | cases h

/-- Where reading the response is after these frames. -/
def Operation.reads (operation : Operation) (received : List TFrameId) : Except Stop Unit :=
  match operation.read.run ⟨received, false⟩ with
  | .ok () _ => .ok ()
  | .error e _ => .error e

namespace Operation

variable {operation : Operation} {exchange : Exchange} {RES : Type} [Message RES]

theorem reads_send (h : exchange.read = (fun _ => ()) <$> ResponseDefragmenter.readResponseMsg RES)
    (frames : List TFrameId) : (send exchange).reads frames =
      match (ResponseDefragmenter.readResponseMsg RES).run ⟨frames, false⟩ with
      | .ok _ _ => .ok ()
      | .error e _ => .error e := by
  rw [reads, read, h]
  show (match EStateM.map _ (ResponseDefragmenter.readResponseMsg RES) ⟨frames, false⟩ with
    | .ok () _ => Except.ok ()
    | .error e _ => .error e) = _
  unfold EStateM.map EStateM.run
  cases ResponseDefragmenter.readResponseMsg RES ⟨frames, false⟩ <;> rfl

/-- A call of `send` has an end, but for a panic, when its caller has a result. -/
theorem receiveFrom_iff (h : exchange.read = (fun _ => ()) <$> ResponseDefragmenter.readResponseMsg RES)
    (frames : List TFrameId) : (∃ result : TResult Unit, (send exchange).reads frames = result.mapError .err) ↔
      ∃ result, SubChannel.receiveFrom RES ⟨frames, false⟩ = some result := by
  rw [reads_send h, SubChannel.receiveFrom]
  cases (ResponseDefragmenter.readResponseMsg RES).run ⟨frames, false⟩ with
  | ok r rest => exact iff_of_true ⟨.ok (), rfl⟩ ⟨_, rfl⟩
  | error e rest =>
    cases e with
    | err e => exact iff_of_true ⟨.error e, rfl⟩ ⟨_, rfl⟩
    | panic =>
      constructor
      all_goals
        rintro ⟨result, heq⟩
        cases result <;> cases heq
    | pending =>
      constructor
      all_goals
        rintro ⟨result, heq⟩
        cases result <;> cases heq

theorem reads_nil (operation : Operation) : operation.reads [] = .error .pending := by
  cases operation with
  | sendOne frame => rfl
  | send exchange =>
    obtain ⟨REQ, RES, _, _, self, request, order, -, hread⟩ := exchange.sends
    rw [reads_send hread]
    rfl

theorem reads_append {xs : List TFrameId} (ys : List TFrameId) (h : operation.reads xs ≠ .error .pending) :
    operation.reads (xs ++ ys) = operation.reads xs := by
  cases operation with
  | sendOne frame =>
    cases xs with
    | nil => exact absurd rfl h
    | cons x xs => rfl
  | send exchange =>
    obtain ⟨REQ, RES, _, _, self, request, order, -, hread⟩ := exchange.sends
    rw [reads_send hread] at h ⊢
    rw [reads_send hread]
    rw [ResponseDefragmenter.readResponseMsg_run] at h ⊢
    rw [ResponseDefragmenter.readResponseMsg_run]
    rcases Defragmenter.readAndCheck_append .callResponse CallResponse.decode
      (checkArgScheme (Message.argsScheme RES)) xs ys with ⟨rest, hp⟩ | ⟨e, rest, rest', he, he'⟩ |
        ⟨⟨fields, margs⟩, rest, rest', hok, hok'⟩
    · rw [hp] at h
      exact absurd rfl h
    · rw [he, he']
    · rw [hok, hok']
      cases hfrom : (Message.tryFrom margs : CodecResult RES) <;> simp only [hfrom]

end Operation

namespace ClientCall

variable {call call' : ClientCall} {outgoing outgoing' : Channel} {bufferSize : ℕ}

/-- How the call has got to its phase. -/
structure Follows (call : ClientCall) : Prop where
  before : call.phase.isReading = true → call.phase ≠ .receiving → call.received = []
  waits : call.phase = .receiving → call.operation.reads call.received = .error .pending
  panics : call.phase = .panicked → call.operation.reads call.received = .error .panic
  result : ∀ result, call.phase.result = some result → (∃ e, call.operation.frames = .error e ∧ result = .error e) ∨
    call.operation.reads call.received = result.mapError .err

theorem follows_new (operation : Operation) (id : UInt32) : (new operation id).Follows :=
  ⟨fun _ _ => rfl, nofun, nofun, nofun⟩

theorem Follows.congr (h : call.Follows) (hop : call'.operation = call.operation)
    (hreceived : call'.received = call.received) (hphase : call'.phase = call.phase) : call'.Follows := by
  refine ⟨?_, ?_, ?_, ?_⟩ <;> rw [hphase, hreceived]
  · exact h.before
  · rw [hop]
    exact h.waits
  · rw [hop]
    exact h.panics
  · rw [hop]
    exact h.result

theorem Follows.of_reading (hreading : call.phase.isReading = true) (hreceived : call.received = []) :
    call.Follows := by
  refine ⟨fun _ _ => hreceived, fun _ => ?_, fun hpanics => ?_, fun result hresult => ?_⟩
  · rw [hreceived]
    exact call.operation.reads_nil
  · rw [hpanics] at hreading
    cases hreading
  · rw [ClientPhase.isReading_of_result hresult] at hreading
    cases hreading

theorem Follows.of_result {result : TResult Unit} (hphase : call.phase.result = some result)
    (h : (∃ e, call.operation.frames = .error e ∧ result = .error e) ∨
      call.operation.reads call.received = result.mapError .err) : call.Follows := by
  have hreading := ClientPhase.isReading_of_result hphase
  refine ⟨fun hreads => ?_, fun hwaits => ?_, fun hpanics => ?_, fun result' hresult => ?_⟩
  · rw [hreading] at hreads
    cases hreads
  · rw [hwaits] at hphase
    cases hphase
  · rw [hpanics] at hphase
    cases hphase
  · obtain rfl := Option.some.inj (hphase.symm.trans hresult)
    exact h

/-- A call that has frames does not end before it reads some. -/
theorem Follows.received_ne (h : call.Follows) (hread : call.phase.isReading = false) {frames : List TFrame}
    (hframes : call.operation.frames = .ok frames) : call.received ≠ [] := by
  intro hnil
  have hpending := call.operation.reads_nil
  rw [← hnil] at hpending
  rcases ClientPhase.panicked_or_result hread with hphase | ⟨result, hphase⟩
  · rw [h.panics hphase] at hpending
    cases hpending
  · rcases h.result result hphase with ⟨e, herror, -⟩ | hreads
    · rw [hframes] at herror
      cases herror
    · rw [hreads] at hpending
      cases result <;> cases hpending

theorem follows_finish {result : TResult Unit} (h : call.operation.reads call.received = result.mapError .err) :
    (call.finish result).Follows := by
  have hkeeps : call.Keeps (call.finish result) := keeps_finish result
  have hfinish : (call.finish result).phase.result = some result ∧ (call.finish result).received = call.received := by
    unfold finish
    split <;> exact ⟨rfl, rfl⟩
  refine .of_result hfinish.1 (.inr ?_)
  rw [hkeeps.operation, hfinish.2]
  exact h

theorem proceed_of_pending (h : call.operation.reads call.received = .error .pending) : call.proceed false = call := by
  unfold Operation.reads at h
  unfold proceed
  split <;> rename_i hread <;> rw [hread] at h <;> cases h

theorem follows_proceed (hphase : call.phase = .receiving) : (call.proceed false).Follows := by
  unfold proceed
  split
  · rename_i hread
    exact follows_finish (by rw [Operation.reads, hread]; rfl)
  · rename_i e hread
    exact follows_finish (by rw [Operation.reads, hread]; rfl)
  · rename_i hread
    refine ⟨nofun, nofun, fun _ => ?_, nofun⟩
    rw [Operation.reads]
    simp only [hread]
  · rename_i hread
    refine ⟨fun _ hne => absurd hphase hne, fun _ => by rw [Operation.reads, hread], ?_, ?_⟩ <;> rw [hphase] <;> nofun

/-- A call that has not read its response has its receiver. -/
def Listens (call : ClientCall) : Prop := call.phase.isReading = true → call.input.receiverAlive = true

theorem Listens.fail (e : TChannelError) : (call.fail e).Listens := by
  unfold ClientCall.fail
  split <;> exact nofun

theorem Listens.register (h : call.Listens) (hphase : call.phase = .allocated) (now : ℕ)
    (result : ConnectionResult Unit) : (call.register now result).Listens := by
  cases result with
  | ok => exact fun _ => h (by rw [hphase]; rfl)
  | error e => exact nofun

theorem Listens.proceed (h : call.Listens) (closed : Bool) : (call.proceed closed).Listens := by
  have hfinish : ∀ result, (call.finish result).Listens := by
    intro result
    unfold finish
    split <;> exact nofun
  unfold ClientCall.proceed
  split
  · exact hfinish _
  · exact hfinish _
  · exact nofun
  · exact h

theorem Listens.runs {closed : Prop} (h : call.Listens) (hrun : call.Runs bufferSize closed outgoing call' outgoing') :
    call'.Listens := by
  cases hrun with
  | creates hphase =>
    unfold create
    split
    · exact fun _ => h (by rw [hphase]; rfl)
    · exact .fail _
  | sends hphase _ => exact fun _ => h (by rw [hphase]; rfl)
  | sendFails _ _ => exact .fail _
  | sent hphase => exact fun _ => h (by rw [hphase]; rfl)
  | @receives frame queue hphase _ =>
    have hread : Listens { call with
        input := { call.input with queue }, received := call.received ++ [frame] } := fun hreading => h hreading
    exact hread.proceed false
  | starves hphase _ _ => exact h.proceed true

theorem Follows.runs (h : call.Follows) (hrun : call.Runs bufferSize False outgoing call' outgoing')
    (halive : outgoing.receiverAlive = true) : call'.Follows := by
  have hnew : call.phase.isReading = true → call.phase ≠ .receiving → ∀ phase : ClientPhase, phase.isReading = true →
      Follows { call with phase } := fun hreading hne phase hphase =>
    .of_reading hphase (h.before hreading hne)
  cases hrun with
  | creates hphase =>
    have hreading : call.phase.isReading = true := by rw [hphase]; rfl
    have hne : call.phase ≠ .receiving := by rw [hphase]; nofun
    unfold create
    split
    · exact hnew hreading hne _ rfl
    · rename_i e hframes
      unfold fail
      split
      · rename_i hop
        rw [hop] at hframes
        cases hframes
      · exact .of_result rfl (.inl ⟨e, hframes, rfl⟩)
  | sends hphase _ => exact hnew (by rw [hphase]; rfl) (by rw [hphase]; nofun) _ rfl
  | sendFails _ hgone =>
    rw [halive] at hgone
    cases hgone
  | sent hphase => exact hnew (by rw [hphase]; rfl) (by rw [hphase]; nofun) _ rfl
  | receives hphase _ => exact follows_proceed hphase
  | starves _ _ hclosed => exact hclosed.elim

end ClientCall

namespace ClientConnection

variable {bufferSize k : ℕ} {s s' : ClientConnection} {call : ClientCall}

theorem Inv.own (h : s.Inv bufferSize) (hlen : s.calls.length ≤ 2 ^ 32) (hcall : s.calls[k]? = some call)
    (hactive : call.phase.isActive = true) : s.pendingIds.get call.id = some k := by
  have hk := h.calls k call hcall
  have hphase : call.phase ≠ .allocated := by
    intro heq
    rw [heq] at hactive
    cases hactive
  exact h.routed hlen k call hcall ⟨hk.registeredAt_isSome hphase, hk.active hactive⟩

theorem Inv.register_ok (h : s.Inv bufferSize) (hlen : s.calls.length ≤ 2 ^ 32) (hcall : s.calls[k]? = some call)
    (hphase : call.phase = .allocated) : s.pendingIds.get call.id = none := by
  cases hget : s.pendingIds.get call.id with
  | none => rfl
  | some j =>
    obtain ⟨c, hc, hid, hopen⟩ := h.registered call.id j hget
    obtain rfl := h.eq_of_id_eq hlen hc hcall hid
    obtain rfl := Option.some.inj (hc.symm.trans hcall)
    have hsome := hopen.1
    rw [(h.calls _ _ hc).allocated hphase] at hsome
    cases hsome

theorem Step.alive_of_alive (hstep : Step bufferSize s s') (halive : s'.outgoing.receiverAlive = true) :
    s.outgoing.receiverAlive = true := by
  cases hstep with
  | runs _ hrun => cases hrun <;> exact halive
  | stops => cases halive
  | calls _ => exact halive
  | registers _ _ _ => exact halive
  | closes _ _ _ => exact halive
  | closesAgain _ _ _ => exact halive
  | arrives _ => exact halive
  | delivers _ _ _ => exact halive
  | deliverFails _ _ _ => exact halive
  | writes _ => exact halive

theorem listens (hreach : (system bufferSize).Reachable s) :
    ∀ (k : ℕ) call, s.calls[k]? = some call → call.Listens := by
  refine hreach.invariant (P := fun s => ∀ (k : ℕ) call, s.calls[k]? = some call → call.Listens) ?_ ?_
  · rintro s rfl k call hcall
    cases hcall
  · intro s s' _ h hstep j c hc
    cases hstep with
    | calls operation =>
      rcases getElem?_concat_cases hc with hc | ⟨-, rfl⟩
      · exact h j c hc
      · exact fun _ => rfl
    | @registers k call _ hcall hphase =>
      rcases getElem?_set_cases hc with ⟨-, rfl⟩ | ⟨-, hc⟩
      · exact (h k call hcall).register hphase _ _
      · exact h j c hc
    | @runs k call call' outgoing hcall hrun =>
      rcases getElem?_set_cases hc with ⟨-, rfl⟩ | ⟨-, hc⟩
      · exact (h k call hcall).runs hrun
      · exact h j c hc
    | @closes k call result again _ hcall _ =>
      rcases getElem?_set_cases hc with ⟨-, rfl⟩ | ⟨-, hc⟩
      · cases again <;> exact nofun
      · exact h j c hc
    | @closesAgain k call result _ hcall _ =>
      rcases getElem?_set_cases hc with ⟨-, rfl⟩ | ⟨-, hc⟩
      · exact nofun
      · exact h j c hc
    | arrives _ => exact h j c hc
    | @delivers frame k call _ hcall _ =>
      rcases getElem?_set_cases hc with ⟨-, rfl⟩ | ⟨-, hc⟩
      · exact fun hreading => h k call hcall hreading
      · exact h j c hc
    | deliverFails _ _ _ => exact h j c hc
    | writes _ => exact h j c hc
    | stops => exact h j c hc

theorem outcomes_step (hinv : s.Inv bufferSize) (hlen : s.calls.length ≤ 2 ^ 32)
    (halive : s.outgoing.receiverAlive = true) (h : ∀ (k : ℕ) call, s.calls[k]? = some call → call.Follows)
    (hstep : Step bufferSize s s') : ∀ (k : ℕ) call, s'.calls[k]? = some call → call.Follows := by
  intro j c hc
  cases hstep with
  | calls operation =>
    rcases getElem?_concat_cases hc with hc | ⟨-, rfl⟩
    · exact h j c hc
    · exact ClientCall.follows_new _ _
  | @registers k call hlock hcall hphase =>
    rcases getElem?_set_cases hc with ⟨-, rfl⟩ | ⟨-, hc⟩
    · simp only [hinv.register_ok hlen hcall hphase]
      exact .of_reading rfl ((h k call hcall).before (by rw [hphase]; rfl) (by rw [hphase]; nofun))
    · exact h j c hc
  | @runs k call call' outgoing hcall hrun =>
    rcases getElem?_set_cases hc with ⟨-, rfl⟩ | ⟨-, hc⟩
    · have hown : (s.pendingIds.get call.id ≠ some k) = False :=
        eq_false (not_not.2 (hinv.own hlen hcall hrun.ofRun.1))
      rw [hown] at hrun
      exact (h k call hcall).runs hrun halive
    · exact h j c hc
  | @closes k call result again hlock hcall hphase =>
    rcases getElem?_set_cases hc with ⟨-, rfl⟩ | ⟨-, hc⟩
    · have hresult := (h k call hcall).result result (by rw [hphase]; rfl)
      cases again <;> exact .of_result rfl hresult
    · exact h j c hc
  | @closesAgain k call result hlock hcall hphase =>
    rcases getElem?_set_cases hc with ⟨-, rfl⟩ | ⟨-, hc⟩
    · exact .of_result rfl ((h k call hcall).result result (by rw [hphase]; rfl))
    · exact h j c hc
  | arrives _ => exact h j c hc
  | @delivers frame k call hsending hcall hready =>
    rcases getElem?_set_cases hc with ⟨-, rfl⟩ | ⟨-, hc⟩
    · exact (h k call hcall).congr rfl rfl rfl
    · exact h j c hc
  | deliverFails _ _ _ => exact h j c hc
  | writes _ => exact h j c hc
  | stops => exact h j c hc

theorem outcomes (hreach : (system bufferSize).Reachable s) (hlen : s.calls.length ≤ 2 ^ 32)
    (halive : s.outgoing.receiverAlive = true) : ∀ (k : ℕ) call, s.calls[k]? = some call → call.Follows := by
  refine hreach.invariant (P := fun s => s.calls.length ≤ 2 ^ 32 → s.outgoing.receiverAlive = true →
    ∀ (k : ℕ) call, s.calls[k]? = some call → call.Follows) ?_ ?_ hlen halive
  · rintro s rfl - - k call hcall
    cases hcall
  · intro s s' hs h hstep hlen' halive'
    have hlen := hstep.length_le.trans hlen'
    have halive := hstep.alive_of_alive halive'
    exact outcomes_step (Inv.of_reachable hs) hlen halive (h hlen halive) hstep

end ClientConnection

end Tchannel
