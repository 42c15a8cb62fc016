import Tchannel.RpcCalls
import Tchannel.RpcTermination
import Tchannel.StreamConnection

/-!
# Streams of bytes carry the frames

No frame that the two ends exchange is too long for the length field (`RpcConnection.Inv.fits_queue`,
`RpcConnection.Inv.fits_answer`), so that the codec reads back what was written. Then a connection on streams of
bytes does what the connection of `RpcConnection` does, where the frames are in flight as they are
(`StreamConnection.Refines`): a step of the one is a step of the other, or only takes bytes further (`Move.follows`).
-/

namespace Tchannel
open Wire

/-! ### The frames fit -/

/-- The length field has room for the frame. -/
def TFrameId.Fits (frame : TFrameId) : Prop := frame.frame.size ≤ 65519

theorem TFrameIdCodec.framing_exact : framing.Exact TFrameId.Fits where
  nil := rfl
  ne_nil item _ hnil := by
    have hlength := congrArg List.length hnil
    simp [framing, frameHeaderLength] at hlength
  whole item rest hfits := by
    simp only [framing, decode_wire hfits rest]
  part item p q hfits hpq hne := by
    simp only [framing, decode_wire_cut hfits hpq hne]

theorem Operation.Used.fits {operation : Operation} (hused : operation.Used) {frames : List TFrame}
    (h : operation.frames = .ok frames) : ∀ frame ∈ frames, frame.size ≤ 65519 := by
  cases hused with
  | ping =>
    obtain rfl := Except.ok.inj h
    exact List.forall_mem_singleton.2 (Nat.zero_le _)
  | send exchange =>
    obtain ⟨REQ, RES, _, _, self, message, order, hframes, -⟩ := exchange.sends
    obtain ⟨margs, -, hcut⟩ := SubChannel.createFrames_eq_ok.1 (hframes.symm.trans h)
    exact fun frame hmem => Nat.le_succ_of_le (createFrames_size hcut frame hmem)

namespace RpcConnection

variable {cfg : RpcConfig} {s : RpcConnection} {k : ℕ}

theorem Inv.fits_queue (hinv : s.Inv cfg) (hcalls : s.Calls) : ∀ frame ∈ s.client.outgoing.queue, frame.Fits := by
  intro frame hmem
  have hsent : frame ∈ s.client.sentFrames s.written := List.mem_append_right _ hmem
  obtain ⟨k, call, hcall, hid⟩ := hinv.sends.owned frame hsent
  have hown : frame ∈ framesOf call.id (s.client.sentFrames s.written) := mem_framesOf.2 ⟨hsent, hid.symm⟩
  have hk : 1 ≤ k := by
    refine Nat.one_le_iff_ne_zero.2 ?_
    rintro rfl
    obtain ⟨first, result, hfirst, -, hzero, -⟩ := hcalls.handshake
    rw [Option.some.inj (hcall.symm.trans hfirst), hzero, hcalls.unsent] at hown
    cases hown
  obtain ⟨frames, hframes, hpre⟩ := (hinv.sends.calls k call hcall).begins (List.ne_nil_of_mem hown)
  obtain ⟨f, hf, rfl⟩ := List.mem_map.1 (hpre.subset hown)
  exact (hcalls.used k call hk hcall).fits hframes f hf

theorem Inv.fits_answer (hinv : s.Inv cfg) (husize : ∀ handler, cfg.server.handlers handler →
      ∀ service subchannel args code response, handler.subchannels.lookup service = some subchannel →
        subchannel.handle args = .ok (code, response) → UsizeLengths response.args)
    {task : Task} (htask : s.server.tasks[k]? = some task) {request : RequestRead} {frames : List TFrameId}
    (hphase : task.phase = .answered request frames) : ∀ frame ∈ frames, frame.Fits := by
  have htinv := hinv.task_inv htask
  obtain ⟨rest, hrun⟩ := readPhase_eq_read (htinv.reads request (by rw [hphase]; rfl))
  obtain ⟨handler, order, hhandler, hrespond⟩ := htinv.responds request frames hphase
  exact fun frame hmem => Nat.le_succ_of_le (respond_size (readRequest_service hrun)
    (fun subchannel code margs hsub hr => husize handler hhandler _ subchannel _ code margs hsub hr) hrespond frame hmem)

/-- `FrameSender` takes some frames, one after another; when the server is gone they are lost. -/
theorem takes_all (hroom : ∀ frames, cfg.room frames) (hreach : (system cfg).Reachable s)
    (hids : s.client.calls.length ≤ 2 ^ 32) (halive : s.client.outgoing.receiverAlive = true)
    {taken queue : List TFrameId} (hne : taken ≠ []) (hqueue : s.client.outgoing.queue = taken ++ queue) :
    ∃ requests, (s.server.stopped = none → requests = s.requests ++ taken) ∧ Relation.TransGen (Moves cfg) s
      { s with
        client := { s.client with outgoing := { s.client.outgoing with queue } }
        requests, written := s.written ++ taken } := by
  induction taken generalizing s with
  | nil => exact absurd rfl hne
  | cons frame taken ih =>
    -- the first frame is written or lost
    obtain ⟨requests, hrequests, hmove⟩ : ∃ requests, (s.server.stopped = none → requests = s.requests ++ [frame]) ∧
        Moves cfg s { s with
          client := { s.client with outgoing := { s.client.outgoing with queue := taken ++ queue } }
          requests, written := s.written ++ [frame] } := by
      by_cases hlive : s.server.stopped = none
      · exact ⟨_, fun _ => rfl, hreach, hids, halive, .writes hlive hqueue (hroom _)⟩
      · exact ⟨s.requests, fun h => absurd h hlive, hreach, hids, halive, .loses hlive hqueue⟩
    by_cases hnil : taken = []
    · subst hnil
      exact ⟨requests, hrequests, .single hmove⟩
    · obtain ⟨requests', hrequests', hmoves⟩ := ih (hreach.step (.moves hmove.2.2.2)) hids halive hnil rfl
      refine ⟨requests', fun hlive => ?_, .head hmove ?_⟩
      · rw [hrequests' hlive]
        show requests ++ taken = _
        rw [hrequests hlive, List.append_assoc]
        rfl
      · simpa only [List.append_assoc, List.singleton_append] using hmoves

theorem Moves.steps {s' : RpcConnection} (h : Relation.TransGen (Moves cfg) s s') : (system cfg).Steps s s' := by
  induction h with
  | single hmove => exact .one (.moves hmove.2.2.2)
  | tail _ hmove ih => exact ih.tail (.moves hmove.2.2.2)

end RpcConnection

/-- The connection with its frames in flight as they are. -/
def StreamConfig.frames (cfg : StreamConfig) : RpcConfig where
  bufferSize := cfg.bufferSize
  bufferSize_pos := cfg.bufferSize_pos
  server := cfg.server
  room := fun _ => True
  room_nil := trivial

namespace StreamConnection
open TFrameIdCodec

/-- The streams carry these frames: the requests as long as the server is there, and the answers that are no longer
in the channel. -/
structure Carries (b : StreamConnection) (requests answers : List TFrameId) : Prop where
  requests : b.server.stopped = none → b.requests.Carries framing TFrameId.Fits requests ∧ b.requests.broken = false
  answers : b.responses.Carries framing TFrameId.Fits answers
  channel : ∀ frame ∈ b.channel, frame.Fits
  intact : b.server.stopped = none → b.responses.broken = false
  broken : b.responses.broken = true → b.channel = []
  alive : b.client.outgoing.receiverAlive = true
  hears : b.deaf = false

def frames (b : StreamConnection) (requests answers written : List TFrameId) : RpcConnection :=
  ⟨b.client, requests, b.server, b.passed, answers ++ b.channel, written⟩

def Refines (b : StreamConnection) (s : RpcConnection) : Prop :=
  ∃ requests answers written, s = b.frames requests answers written ∧ b.Carries requests answers

/-- A bound for the steps that only take bytes further. -/
def toCarry (b : StreamConnection) : ℕ :=
  b.requests.toCarry framing + b.responses.toCarry framing +
    (b.channel.map fun frame => 2 * (framing.encode frame).length + 2).sum +
    (if b.requests.broken then 0 else 1) + if b.responses.broken then 0 else 1

variable {cfg : StreamConfig} {b b' : StreamConnection} {requests answers : List TFrameId} {n : ℕ}

namespace Carries

theorem start (init : TFrame) (response : TFrameId) : (start init response).Carries [] [] :=
  ⟨fun _ => ⟨Link.carries_new, rfl⟩, Link.carries_new, nofun, fun _ => rfl, fun _ => rfl, rfl, rfl⟩

theorem serves (h : b.Carries requests answers) {server : Server} (hlive : b.server.stopped = none) :
    Carries { b with server } requests answers :=
  ⟨fun _ => h.requests hlive, h.answers, h.channel, fun _ => h.intact hlive, h.broken, h.alive, h.hears⟩

theorem takesAnswers (h : b.Carries requests answers) (hfree : b.responses.Free) :
    Carries { b with channel := b.channel.drop n, responses := b.responses.put (b.channel.take n) } requests
      (answers ++ b.channel.take n) := by
  refine ⟨h.requests, h.answers.put hfree fun frame hmem => h.channel frame (List.mem_of_mem_take hmem),
    fun frame hmem => h.channel frame (List.mem_of_mem_drop hmem), h.intact, fun hbroken => ?_, h.alive, h.hears⟩
  show b.channel.drop n = []
  rw [h.broken hbroken, List.drop_nil]

theorem breaks (h : b.Carries requests answers) (hgone : b.server.stopped ≠ none) (n : ℕ) :
    ∃ k, Carries { b with channel := [], responses := b.responses.cut n } requests (answers.take k) := by
  obtain ⟨k, hcut⟩ := h.answers.cut n
  exact ⟨k, fun hlive => absurd hlive hgone, hcut, nofun, fun hlive => absurd hlive hgone, fun _ => rfl, h.alive,
    h.hears⟩

theorem moves_answers (h : b.Carries requests answers) {responses : Link TFrameId UInt8}
    (hcarries : responses.Carries framing TFrameId.Fits answers) (hbroken : responses.broken = b.responses.broken) :
    Carries { b with responses } requests answers :=
  ⟨h.requests, hcarries, h.channel, fun hlive => hbroken.trans (h.intact hlive), fun heq =>
    h.broken (hbroken.symm.trans heq), h.alive, h.hears⟩

theorem moves_requests (h : b.Carries requests answers) {link : Link TFrameId UInt8}
    (hcarries : b.requests.Carries framing TFrameId.Fits requests → link.Carries framing TFrameId.Fits requests)
    (hbroken : link.broken = b.requests.broken) : Carries { b with requests := link } requests answers :=
  ⟨fun hlive => ⟨hcarries (h.requests hlive).1, hbroken.trans (h.requests hlive).2⟩, h.answers, h.channel, h.intact,
    h.broken, h.alive, h.hears⟩

end Carries

/-! ### The steps -/

theorem toCarry_takesAnswers (hfree : b.responses.Free) (hn : 0 < n) (hchannel : n ≤ b.channel.length) :
    toCarry { b with channel := b.channel.drop n, responses := b.responses.put (b.channel.take n) } < b.toCarry := by
  have hsplit : (b.channel.map fun frame => 2 * (framing.encode frame).length + 2).sum =
      ((b.channel.take n).map fun frame => 2 * (framing.encode frame).length + 2).sum +
        ((b.channel.drop n).map fun frame => 2 * (framing.encode frame).length + 2).sum := by
    rw [← List.sum_append, ← List.map_append, List.take_append_drop]
  have hmore : ((b.channel.take n).map fun frame => 2 * (framing.encode frame).length + 2).sum =
      ((b.channel.take n).map fun frame => 2 * (framing.encode frame).length + 1).sum + n := by
    have hadd := List.sum_map_add (l := b.channel.take n) (f := fun frame => 2 * (framing.encode frame).length + 1)
      (g := fun _ => 1)
    rw [List.map_const', List.sum_replicate_nat, List.length_take, Nat.min_eq_left hchannel, Nat.mul_one] at hadd
    exact hadd
  have hput := Link.toCarry_put (F := framing) hfree (b.channel.take n)
  have hbroken : (b.responses.put (b.channel.take n)).broken = b.responses.broken := rfl
  simp only [toCarry, hput, hsplit, hmore, hbroken]
  omega

/-- A step is some moves of the frames, or only takes bytes further. -/
theorem Move.follows (hmove : Move cfg b b') {s : RpcConnection} (href : b.Refines s)
    (hreach : (RpcConnection.system cfg.frames).Reachable s) (hids : s.client.calls.length ≤ 2 ^ 32) :
    (∃ s', Relation.TransGen (RpcConnection.Moves cfg.frames) s s' ∧ b'.Refines s') ∨
      (b'.Refines s ∧ b'.toCarry < b.toCarry) := by
  obtain ⟨requests, answers, written, rfl, h⟩ := href
  have hinv := RpcConnection.Inv.of_reachable hreach hids
  -- one move of the frames
  have hone : ∀ {s'}, RpcConnection.Move cfg.frames (b.frames requests answers written) s' →
      Relation.TransGen (RpcConnection.Moves cfg.frames) (b.frames requests answers written) s' :=
    fun hmove => .single ⟨hreach, hids, h.alive, hmove⟩
  cases hmove with
  | acts hstep hinside =>
    exact .inl ⟨_, hone (.acts hstep hinside), _, _, _, rfl, h.requests, h.answers, h.channel, h.intact, h.broken,
      hinside.sender.trans h.alive, h.hears⟩
  | @takes n hfree hn hle hqueue =>
    have hne : b.client.outgoing.queue.take n ≠ [] := by
      intro hnil
      have hlength := congrArg List.length hnil
      rw [List.length_take, Nat.min_eq_left hqueue] at hlength
      exact Nat.ne_of_gt hn hlength
    obtain ⟨requests', hrequests, hmoves⟩ := RpcConnection.takes_all (fun _ => trivial) hreach hids h.alive hne
      (List.take_append_drop n b.client.outgoing.queue).symm
    refine .inl ⟨_, hmoves, _, _, _, rfl, fun hlive => ⟨?_, hfree.intact⟩, h.answers, h.channel, h.intact, h.broken,
      h.alive, h.hears⟩
    rw [hrequests hlive]
    exact (h.requests hlive).1.put hfree fun frame hmem =>
      hinv.fits_queue (RpcConnection.Calls.of_reachable hreach hids) frame (List.mem_of_mem_take hmem)
  | writes hwrites =>
    refine .inr ⟨⟨_, _, _, rfl, h.moves_requests (fun hcarries => hcarries.writes hwrites) hwrites.broken_eq⟩, ?_⟩
    have hlt := hwrites.toCarry_lt
    simp only [toCarry, hwrites.broken_eq]
    omega
  | reads hlive hpolls hreads =>
    refine .inr ⟨⟨_, _, _, rfl, h.moves_requests (fun hcarries => hcarries.reads hreads) hreads.broken_eq⟩, ?_⟩
    have hlt := hreads.toCarry_lt
    simp only [toCarry, hreads.broken_eq]
    omega
  | reaches hlive hpolls hframe =>
    obtain ⟨hcarries, hintact⟩ := h.requests hlive
    rcases hcarries.decode framing_exact with hmore | ⟨i, rest', requests', rfl, hdecode, hcarries'⟩
    · rw [hmore] at hframe
      cases hframe
    · rw [hdecode] at hframe
      obtain ⟨rfl, rfl⟩ := Prod.mk.inj (Option.some.inj (Except.ok.inj hframe))
      exact .inl ⟨_, hone (.reaches hlive hpolls rfl), _, _, _, rfl, fun _ => ⟨hcarries', hintact⟩, h.answers,
        h.channel, h.intact, h.broken, h.alive, h.hears⟩
  | refuses hlive hpolls hframe =>
    rcases (h.requests hlive).1.decode framing_exact with hmore | ⟨i, rest', requests', -, hdecode, -⟩
    · rw [hmore] at hframe
      cases hframe
    · rw [hdecode] at hframe
      cases hframe
  | serves hstep hplace => exact .inl ⟨_, hone (.serves hstep hplace), _, _, _, rfl, h.serves hstep.1⟩
  | @passes k task request frames frame hlive htask hphase hframe hroom =>
    refine .inl ⟨_, hone (.passes hlive htask hphase hframe trivial), requests, answers, written, ?_, h.requests,
      h.answers, fun f hmem => ?_, h.intact, fun hbroken => ?_, h.alive, h.hears⟩
    · simp only [StreamConnection.frames, List.append_assoc]
    · rcases List.mem_append.1 hmem with hmem | hmem
      · exact h.channel f hmem
      · rw [List.mem_singleton.1 hmem]
        exact hinv.fits_answer cfg.usize htask hphase frame (List.mem_of_getElem? hframe)
    · exact absurd ((h.intact hlive).symm.trans hbroken) Bool.false_ne_true
  | @takesAnswers n hfree hn hle hchannel =>
    refine .inr ⟨⟨requests, answers ++ b.channel.take n, written, ?_, h.takesAnswers hfree⟩,
      toCarry_takesAnswers hfree hn hchannel⟩
    simp only [StreamConnection.frames, List.append_assoc, List.take_append_drop]
  | answers hwrites =>
    refine .inr ⟨⟨_, _, _, rfl, h.moves_answers (h.answers.writes hwrites) hwrites.broken_eq⟩, ?_⟩
    have hlt := hwrites.toCarry_lt
    simp only [toCarry, hwrites.broken_eq]
    omega
  | listens hidle hhears hreads =>
    refine .inr ⟨⟨_, _, _, rfl, h.moves_answers (h.answers.reads hreads) hreads.broken_eq⟩, ?_⟩
    have hlt := hreads.toCarry_lt
    simp only [toCarry, hreads.broken_eq]
    omega
  | arrives hidle hhears hframe =>
    rcases h.answers.decode framing_exact with hmore | ⟨i, rest', answers', rfl, hdecode, hcarries'⟩
    · rw [hmore] at hframe
      cases hframe
    · rw [hdecode] at hframe
      obtain ⟨rfl, rfl⟩ := Prod.mk.inj (Option.some.inj (Except.ok.inj hframe))
      exact .inl ⟨_, hone (.arrives hidle rfl), _, _, _, rfl, h.requests, hcarries', h.channel, h.intact, h.broken,
        h.alive, h.hears⟩
  | deafens hidle hhears hframe =>
    rcases h.answers.decode framing_exact with hmore | ⟨i, rest', answers', -, hdecode, -⟩
    · rw [hmore] at hframe
      cases hframe
    · rw [hdecode] at hframe
      cases hframe
  | resets hgone hintact =>
    refine .inr ⟨⟨_, _, _, rfl, fun hlive => absurd hlive hgone, h.answers, h.channel, h.intact, h.broken, h.alive,
      h.hears⟩, ?_⟩
    have hle := Link.toCarry_cut_le (F := framing) b.requests 0
    have hbroken : (b.requests.cut 0).broken = true := rfl
    simp only [toCarry, hbroken, hintact, if_true, Bool.false_eq_true, if_false]
    omega
  | loses hgone hbroken hqueue =>
    exact .inl ⟨_, hone (.loses hgone hqueue), _, _, _, rfl, fun hlive => absurd hlive hgone, h.answers, h.channel,
      h.intact, h.broken, h.alive, h.hears⟩
  | @breaks n hgone hintact =>
    obtain ⟨k, hcarries⟩ := h.breaks hgone n
    have htake : answers.take k ++ [] = (answers ++ b.channel).take (min k answers.length) := by
      rw [List.append_nil, List.take_append_of_le_length (Nat.min_le_right _ _), List.take_eq_take_iff]
      omega
    rcases Nat.lt_or_ge (min k answers.length) (answers ++ b.channel).length with hlt | hge
    · refine .inl ⟨_, hone (.breaks hgone hlt), requests, answers.take k, written, ?_, hcarries⟩
      simp only [StreamConnection.frames, htake]
    · refine .inr ⟨⟨requests, answers.take k, written, ?_, hcarries⟩, ?_⟩
      · simp only [StreamConnection.frames, htake, List.take_of_length_le hge]
      · have hle := Link.toCarry_cut_le (F := framing) b.responses n
        have hbroken : (b.responses.cut n).broken = true := rfl
        simp only [toCarry, hbroken, hintact, if_true, Bool.false_eq_true, if_false, List.map_nil, List.sum_nil]
        omega

end StreamConnection

end Tchannel
