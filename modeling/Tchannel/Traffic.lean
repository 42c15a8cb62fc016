import Tchannel.Isolation

/-!
# Interleaved requests

A peer sends given requests, with different ids, over one connection, their frames interleaved in a given
order on the wire (`Traffic`). The frames get to the socket one after another, and the server does what it
does (`Traffic.system`). This is one way to use a connection in the sense of `Demultiplexing`
(`Traffic.simulation`), so that at any time the task of a request has been given exactly those of its frames
that were dispatched (`Sim.sentIn_taken`).
-/

namespace Tchannel
open Wire

namespace Request

/-- Those of some frames that belong to the request. -/
def sentIn (r : Request) (frames : List TFrameId) : List TFrameId := frames.filter fun frame => frame.id = r.id

/-- The first frame of the request is among these, and the last one is not. -/
def IsOpenIn (r : Request) (frames : List TFrameId) : Prop := r.sentIn frames ≠ [] ∧ r.sentIn frames ≠ r.frames

instance (r : Request) (frames : List TFrameId) : Decidable (r.IsOpenIn frames) :=
  inferInstanceAs (Decidable (_ ∧ _))

variable {r : Request} {frames frames' : List TFrameId}

theorem sentIn_append (r : Request) (frames frames' : List TFrameId) :
    r.sentIn (frames ++ frames') = r.sentIn frames ++ r.sentIn frames' := List.filter_append _ _

theorem sentIn_cons_self {frame : TFrameId} (h : frame.id = r.id) :
    r.sentIn (frame :: frames) = frame :: r.sentIn frames := List.filter_cons_of_pos (by simpa using h)

theorem sentIn_cons_of_ne {frame : TFrameId} (h : frame.id ≠ r.id) :
    r.sentIn (frame :: frames) = r.sentIn frames := List.filter_cons_of_neg (by simpa using h)

theorem sentIn_eq_nil (h : ∀ frame ∈ frames, frame.id ≠ r.id) : r.sentIn frames = [] :=
  List.filter_eq_nil_iff.2 fun frame hmem => by simpa using h frame hmem

end Request

/-- Requests with different ids, and their frames in the order in which they are sent. -/
structure Traffic where
  requests : List Request
  wire : List TFrameId
  ids : (requests.map Request.id).Nodup
  complete : ∀ r ∈ requests, r.Complete
  /-- The frames of each request are in their order. -/
  order : ∀ r ∈ requests, r.sentIn wire = r.frames
  known : ∀ frame ∈ wire, ∃ r ∈ requests, frame.id = r.id

/-- A server connection, and the frames that are still on their way to it. -/
structure Receiving where
  incoming : List TFrameId
  server : Server

namespace Traffic

inductive Step (cfg : ServerConfig) (s : Receiving) : Receiving → Prop
  | arrives {frame incoming} (hincoming : s.incoming = frame :: incoming) :
      Step cfg s ⟨incoming, s.server.arrive frame⟩
  | serves {server} (hstep : s.server.Step cfg server) : Step cfg s ⟨s.incoming, server⟩

def system (traffic : Traffic) (cfg : ServerConfig) : TransitionSystem Receiving :=
  ⟨(· = ⟨traffic.wire, Server.new⟩), Step cfg⟩

variable {cfg : ServerConfig} {traffic : Traffic} {s s' : Receiving} {t : Served} {r : Request} {k : ℕ} {q : Sending}

/-- `t` is `s`, seen as a connection to which some of the requests have been sent in part. -/
structure Sim (traffic : Traffic) (s : Receiving) (t : Served) : Prop where
  server : t.server = s.server
  mem : ∀ (k : ℕ) q, t.requests[k]? = some q → q.request ∈ traffic.requests
  once : ∀ (j k : ℕ) p q, t.requests[j]? = some p → t.requests[k]? = some q → p.request.id = q.request.id → j = k
  sent : ∀ (k : ℕ) q, t.requests[k]? = some q →
    q.request.frames.take q.sent ++ q.request.sentIn s.incoming = q.request.frames
  unopened : ∀ r ∈ traffic.requests, (∀ (k : ℕ) q, t.requests[k]? = some q → q.request.id ≠ r.id) →
    r.sentIn s.incoming = r.frames
  wire : ∃ taken, traffic.wire = taken ++ s.server.inFlight ++ s.incoming

theorem sim_start : traffic.Sim ⟨traffic.wire, Server.new⟩ Served.start :=
  ⟨rfl, nofun, nofun, nofun, fun r hr _ => traffic.order r hr, [], rfl⟩

theorem eq_of_id_eq {r r' : Request} (hr : r ∈ traffic.requests) (hr' : r' ∈ traffic.requests) (hid : r.id = r'.id) :
    r = r' :=
  List.inj_on_of_nodup_map traffic.ids hr hr' hid

theorem inFlight_step {server server' : Server} (h : server.Step cfg server') :
    ∃ taken, server.inFlight = taken ++ server'.inFlight := by
  obtain ⟨-, hmove⟩ := h
  cases hmove with
  | @next frame socket _ hidle hsocket =>
    refine ⟨[], ?_⟩
    show server.dispatching.frames ++ server.socket = (server.lookup frame).frames ++ socket
    rw [server.lookup_frames, hidle, hsocket]
    rfl
  | @send frame k task _ hsending _ _ =>
    refine ⟨[frame], ?_⟩
    show server.dispatching.frames ++ server.socket = _
    rw [hsending]
    rfl
  | @first frame _ hfirst _ =>
    refine ⟨[frame], ?_⟩
    show server.dispatching.frames ++ server.socket = _
    rw [hfirst]
    rfl
  | sendFails _ _ _ _ => exact ⟨[], rfl⟩
  | firstFails _ _ _ => exact ⟨[], rfl⟩
  | receive _ _ _ => exact ⟨[], rfl⟩
  | deregister _ _ _ => exact ⟨[], rfl⟩
  | reply _ _ _ => exact ⟨[], rfl⟩

namespace Sim

theorem serves (h : traffic.Sim s t) {server : Server} (hstep : s.server.Step cfg server) :
    traffic.Sim ⟨s.incoming, server⟩ ⟨t.requests, server⟩ := by
  obtain ⟨taken, hwire⟩ := h.wire
  obtain ⟨more, hflight⟩ := inFlight_step hstep
  refine ⟨rfl, h.mem, h.once, h.sent, h.unopened, taken ++ more, ?_⟩
  rw [hwire, hflight]
  simp only [List.append_assoc]

theorem wire_arrives (h : traffic.Sim s t) {frame : TFrameId} {incoming : List TFrameId}
    (hincoming : s.incoming = frame :: incoming) :
    ∃ taken, traffic.wire = taken ++ (s.server.arrive frame).inFlight ++ incoming := by
  obtain ⟨taken, hwire⟩ := h.wire
  refine ⟨taken, ?_⟩
  show _ = taken ++ (s.server.dispatching.frames ++ (s.server.socket ++ [frame])) ++ incoming
  rw [hwire, hincoming, Server.inFlight]
  simp only [List.append_assoc, List.singleton_append]

theorem next_frame (h : traffic.Sim s t) {frame : TFrameId} {incoming : List TFrameId}
    (hincoming : s.incoming = frame :: incoming) (hq : t.requests[k]? = some q) (hid : frame.id = q.request.id) :
    q.request.frames[q.sent]? = some frame ∧
      q.request.frames.take (q.sent + 1) ++ q.request.sentIn incoming = q.request.frames := by
  have hsent := h.sent k q hq
  rw [hincoming, Request.sentIn_cons_self hid] at hsent
  have hlen : (q.request.frames.take q.sent).length = q.sent := by
    have := congrArg List.length hsent
    rw [List.length_append, List.length_cons, List.length_take] at this
    rw [List.length_take]
    omega
  have hframe : q.request.frames[q.sent]? = some frame := by
    conv_lhs => rw [← hsent]
    rw [List.getElem?_append_right (Nat.le_of_eq hlen), hlen, Nat.sub_self]
    rfl
  refine ⟨hframe, ?_⟩
  rw [List.take_add_one, hframe, List.append_assoc]
  exact hsent

theorem sends (h : traffic.Sim s t) {frame : TFrameId} {incoming : List TFrameId}
    (hincoming : s.incoming = frame :: incoming) (hq : t.requests[k]? = some q) (hid : frame.id = q.request.id) :
    traffic.Sim ⟨incoming, s.server.arrive frame⟩
      ⟨t.requests.set k ⟨q.request, q.sent + 1, Nat.succ_pos _⟩, s.server.arrive frame⟩ := by
  have hold : ∀ {j : ℕ} {p : Sending}, (t.requests.set k ⟨q.request, q.sent + 1, Nat.succ_pos _⟩)[j]? = some p →
      ∃ p', t.requests[j]? = some p' ∧ p'.request = p.request := by
    intro j p hp
    rcases getElem?_set_cases hp with ⟨rfl, rfl⟩ | ⟨-, hp⟩
    · exact ⟨q, hq, rfl⟩
    · exact ⟨p, hp, rfl⟩
  refine ⟨rfl, fun j p hp => ?_, fun i j p p' hp hp' hpid => ?_, fun j p hp => ?_, fun r hr hnew => ?_,
    h.wire_arrives hincoming⟩
  · obtain ⟨p', hp', heq⟩ := hold hp
    rw [← heq]
    exact h.mem j p' hp'
  · obtain ⟨p₁, hp₁, heq₁⟩ := hold hp
    obtain ⟨p₂, hp₂, heq₂⟩ := hold hp'
    exact h.once i j p₁ p₂ hp₁ hp₂ (by rw [heq₁, heq₂, hpid])
  · rcases getElem?_set_cases hp with ⟨rfl, rfl⟩ | ⟨hne, hp⟩
    · exact (h.next_frame hincoming hq hid).2
    · have hsent := h.sent j p hp
      rw [hincoming, Request.sentIn_cons_of_ne] at hsent
      · exact hsent
      · intro hpid
        exact hne (h.once j k p q hp hq (hpid.symm.trans hid))
  · have hqr : q.request.id ≠ r.id :=
      hnew k ⟨q.request, q.sent + 1, Nat.succ_pos _⟩ (List.getElem?_set_self (List.getElem?_eq_some_iff.1 hq).1)
    have hold' := h.unopened r hr fun j p hp => by
      rcases eq_or_ne k j with rfl | hne
      · rw [← Option.some.inj (hq.symm.trans hp)]
        exact hqr
      · exact hnew j p ((List.getElem?_set_ne hne).trans hp)
    rw [hincoming, Request.sentIn_cons_of_ne (by rw [hid]; exact hqr)] at hold'
    exact hold'

theorem opens (h : traffic.Sim s t) {frame : TFrameId} {incoming : List TFrameId}
    (hincoming : s.incoming = frame :: incoming) (hr : r ∈ traffic.requests) (hid : frame.id = r.id)
    (hnew : ∀ (k : ℕ) q, t.requests[k]? = some q → q.request.id ≠ r.id) :
    r.frames[0]? = some frame ∧ traffic.Sim ⟨incoming, s.server.arrive frame⟩
      ⟨t.requests ++ [⟨r, 1, Nat.one_pos⟩], s.server.arrive frame⟩ := by
  have hframes := h.unopened r hr hnew
  rw [hincoming, Request.sentIn_cons_self hid] at hframes
  refine ⟨by rw [← hframes]; rfl, rfl, fun j p hp => ?_, fun i j p p' hp hp' hpid => ?_, fun j p hp => ?_,
    fun r' hr' hnew' => ?_, h.wire_arrives hincoming⟩
  · rcases getElem?_concat_cases hp with hp | ⟨-, rfl⟩
    · exact h.mem j p hp
    · exact hr
  · rcases getElem?_concat_cases hp with hp | ⟨rfl, rfl⟩ <;> rcases getElem?_concat_cases hp' with hp' | ⟨rfl, rfl⟩
    · exact h.once i j p p' hp hp' hpid
    · exact absurd hpid (hnew i p hp)
    · exact absurd hpid.symm (hnew j p' hp')
    · rfl
  · rcases getElem?_concat_cases hp with hp | ⟨-, rfl⟩
    · have hsent := h.sent j p hp
      rw [hincoming, Request.sentIn_cons_of_ne (by rw [hid]; exact (hnew j p hp).symm)] at hsent
      exact hsent
    · show r.frames.take 1 ++ r.sentIn incoming = r.frames
      rw [← hframes]
      rfl
  · have hne : r.id ≠ r'.id := hnew' _ ⟨r, 1, Nat.one_pos⟩ List.getElem?_concat_length
    have hold := h.unopened r' hr' fun j p hp =>
      hnew' j p ((List.getElem?_append_left (List.getElem?_eq_some_iff.1 hp).1).trans hp)
    rw [hincoming, Request.sentIn_cons_of_ne (by rw [hid]; exact hne)] at hold
    exact hold

end Sim

/-- Every state is one of a connection to which requests are sent. -/
theorem simulation (hs : (traffic.system cfg).Reachable s) :
    ∃ t, (Served.system cfg).Reachable t ∧ traffic.Sim s t := by
  refine hs.simulation (fun s hinit => ⟨Served.start, rfl, ?_⟩) fun s s' t _ hsim hstep => ?_
  · rw [show s = ⟨traffic.wire, Server.new⟩ from hinit]
    exact sim_start
  · obtain ⟨requests, server⟩ := t
    obtain rfl : server = s.server := hsim.server
    cases hstep with
    | serves hstep => exact ⟨_, .one (Served.Step.serves hstep), hsim.serves hstep⟩
    | @arrives frame incoming hincoming =>
      have hmem : frame ∈ traffic.wire := by
        obtain ⟨taken, hwire⟩ := hsim.wire
        rw [hwire, hincoming]
        exact List.mem_append_right _ List.mem_cons_self
      obtain ⟨r, hr, hid⟩ := traffic.known frame hmem
      by_cases hopened : ∃ (k : ℕ) (q : Sending), requests[k]? = some q ∧ q.request.id = r.id
      · obtain ⟨k, q, hq, hqid⟩ := hopened
        have hid := hid.trans hqid.symm
        exact ⟨_, .one (Served.Step.sends hq (hsim.next_frame hincoming hq hid).1), hsim.sends hincoming hq hid⟩
      · have hnew : ∀ (k : ℕ) q, requests[k]? = some q → q.request.id ≠ r.id := fun k q hq hqid =>
          hopened ⟨k, q, hq, hqid⟩
        obtain ⟨hframe, hopens⟩ := hsim.opens hincoming hr hid hnew
        exact ⟨_, .one (Served.Step.opens (fun k q hq hqid => absurd hqid (hnew k q hq)) hframe), hopens⟩

/-- What was dispatched to the task of a request, or nothing if it has none yet. -/
theorem Sim.sentIn_taken (h : traffic.Sim s t) (hinv : t.Inv cfg) {taken : List TFrameId}
    (hwire : traffic.wire = taken ++ s.server.inFlight ++ s.incoming) (hq : t.requests[k]? = some q) :
    q.request.sentIn taken = t.mux.handedTo k := by
  have hflight : t.mux.handedTo k ++ q.request.sentIn s.server.inFlight = q.request.frames.take q.sent := by
    rw [← h.server]
    by_cases hdone : t.server.Answered k
    · have hnone : q.request.sentIn t.server.inFlight = [] := by
        refine Request.sentIn_eq_nil fun frame hframe hid => ?_
        obtain ⟨j, frames, hopen⟩ := hinv.mux.owned frame hframe
        obtain ⟨p, hp, hpid, -, hpdone⟩ := Served.of_mux_open hopen
        rw [h.once j k p q hp hq (hpid.trans hid)] at hpdone
        exact hpdone hdone
      rw [hnone, List.append_nil]
      exact hinv.mux.complete k _ _ (Served.mux_sent hq) hdone
    · exact hinv.mux.conserved k _ _ (Served.mux_open hq hdone)
  have horder := traffic.order _ (h.mem k q hq)
  rw [hwire, Request.sentIn_append, Request.sentIn_append] at horder
  have hsent := h.sent k q hq
  rw [← hflight] at hsent
  exact List.append_cancel_right (List.append_cancel_right (horder.trans hsent.symm))

end Traffic

end Tchannel
