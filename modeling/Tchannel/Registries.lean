import Tchannel.FrameHandler
import Tchannel.Lib.GetOrCreate

/-!
# Subchannels and connection pools

`TChannel::subchannel` of `channel.rs` and `ConnectionPools::get` of `connection/pool.rs`: both find what they
are asked for in a shared map, or create it there. A subchannel is always made; a pool is built by a third
party, which may refuse. Whoever holds a subchannel registers handlers with it, and nobody takes one away,
since `unregister` needs the subchannel for itself.
-/

namespace Tchannel
open Wire

namespace TChannel

abbrev SharedSubChannels := Registry String SubChannel

/-- What is done under the write lock. -/
def createSubchannel (subchannels : SharedSubChannels) (serviceName : String) : TResult ℕ × SharedSubChannels :=
  subchannels.getOrCreate serviceName (.ok ⟨serviceName, ∅⟩)

/-- A handler is registered with a subchannel. -/
def Registers (subchannel subchannel' : SubChannel) : Prop :=
  ∃ endpoint handler, subchannel.registerHandler endpoint handler = .ok subchannel'

/-- `create_subchannel` as a step. -/
def Creates (subchannels : SharedSubChannels) (serviceName : String) (out : TResult ℕ × SharedSubChannels) : Prop :=
  out = createSubchannel subchannels serviceName

/-- Any number of calls of `subchannel`, and uses of what they returned. -/
def system : TransitionSystem (Callers String SubChannel TChannelError) := Callers.system Creates Registers

theorem creates_looksAgain : Callers.LooksAgain Creates := fun _ serviceName _ _ hcreate =>
  ⟨.ok ⟨serviceName, ∅⟩, hcreate.symm⟩

end TChannel

namespace ConnectionPools

variable {SocketAddr Pool : Type} [DecidableEq SocketAddr]

/-- What is done under the write lock; `built` is what the pool's builder returns. -/
def createPool (pools : Registry SocketAddr Pool) (addr : SocketAddr) (built : Except RunError Pool) :
    Except RunError ℕ × Registry SocketAddr Pool :=
  pools.getOrCreate addr built

/-- `create_pool` as a step: a pool is built or not. -/
def Creates (pools : Registry SocketAddr Pool) (addr : SocketAddr) (out : Except RunError ℕ × Registry SocketAddr Pool) :
    Prop :=
  ∃ built, out = createPool pools addr built

/-- A pool opens and closes connections as it likes. -/
def Changes (_pool _pool' : Pool) : Prop := True

/-- Any number of calls of `get`. -/
def system : TransitionSystem (Callers SocketAddr Pool RunError) := Callers.system Creates Changes

theorem creates_looksAgain : Callers.LooksAgain (@Creates SocketAddr Pool _) :=
  fun _ _ _ _ ⟨built, hcreate⟩ => ⟨built, hcreate.symm⟩

end ConnectionPools

/-! ### Handlers -/

namespace SubChannel

variable {self self' : SubChannel} {endpoint endpoint' : String} {handler handler' : MessageArgsHandler}

theorem getHandler_registered (h : self.registerHandler endpoint handler = .ok self') :
    self'.getHandler endpoint = .ok handler := by
  unfold registerHandler at h
  split at h
  · cases h
  · obtain rfl := Except.ok.inj h
    simp only [getHandler, Finmap.lookup_insert]

theorem getHandler_registerHandler (h : self.registerHandler endpoint' handler' = .ok self')
    (hold : self.getHandler endpoint = .ok handler) : self'.getHandler endpoint = .ok handler := by
  unfold registerHandler at h
  split at h
  · cases h
  · rename_i hnew
    obtain rfl := Except.ok.inj h
    have hne : endpoint ≠ endpoint' := by
      rintro rfl
      rw [getHandler, Finmap.lookup_eq_none.2 hnew] at hold
      cases hold
    simpa only [getHandler, Finmap.lookup_insert_of_ne _ hne] using hold

end SubChannel

namespace TChannel

variable {s s' : Callers String SubChannel TChannelError}

theorem createSubchannel_ok (subchannels : SharedSubChannels) (serviceName : String) :
    ∃ i registry, createSubchannel subchannels serviceName = (.ok i, registry) := by
  rcases Registry.getOrCreate_cases (ε := TChannelError) subchannels serviceName (.ok ⟨serviceName, ∅⟩) with
    ⟨i, -, heq⟩ | ⟨-, x, -, heq⟩ | ⟨-, e, hfails, -⟩
  · exact ⟨_, _, heq⟩
  · exact ⟨_, _, heq⟩
  · cases hfails

/-- No call of `subchannel` fails: one that misses goes on to return. -/
structure AlwaysMade (s : Callers String SubChannel TChannelError) : Prop where
  failed : ∀ (c : ℕ) serviceName e, s.calls[c]? ≠ some ⟨serviceName, .failed e⟩
  missed : ∀ (c : ℕ) serviceName, s.calls[c]? = some ⟨serviceName, .missed⟩ →
    ∃ i s', system.step s s' ∧ s'.calls[c]? = some ⟨serviceName, .returned i⟩

theorem failed_step (h : ∀ (c : ℕ) serviceName e, s.calls[c]? ≠ some ⟨serviceName, .failed e⟩)
    (hstep : system.step s s') : ∀ (c : ℕ) serviceName e, s'.calls[c]? ≠ some ⟨serviceName, .failed e⟩ := by
  intro c serviceName e hc
  cases hstep with
  | calls k =>
    rcases getElem?_concat_cases hc with hc | ⟨-, heq⟩
    · exact h c serviceName e hc
    · cases heq
  | finds _ _ | misses _ _ =>
    rcases getElem?_set_cases hc with ⟨-, heq⟩ | ⟨-, hc⟩
    · cases heq
    · exact h c serviceName e hc
  | @creates c' k result registry _ hcreate =>
    rcases getElem?_set_cases hc with ⟨-, heq⟩ | ⟨-, hc⟩
    · obtain ⟨i, registry', hok⟩ := createSubchannel_ok s.registry k
      obtain ⟨rfl, -⟩ := Prod.mk.inj (hcreate.trans hok)
      cases heq
    · exact h c serviceName e hc
  | uses _ _ => exact h c serviceName e hc

theorem alwaysMade (hs : system.Reachable s) : AlwaysMade s := by
  refine ⟨?_, fun c serviceName hc => ?_⟩
  · refine hs.invariant (P := fun s => ∀ (c : ℕ) serviceName e, s.calls[c]? ≠ some ⟨serviceName, .failed e⟩) ?_
      fun _ _ _ => failed_step
    rintro s rfl c serviceName e hc
    cases hc
  · obtain ⟨i, registry, hok⟩ := createSubchannel_ok s.registry serviceName
    exact ⟨i, _, .creates hc hok.symm, List.getElem?_set_self (List.getElem?_eq_some_iff.1 hc).1⟩

/-- The subchannel that a call returned is there, and a handler that is registered with it is the one that the server
finds for requests to that service, whatever happens after that. -/
def HandlersFound (s : Callers String SubChannel TChannelError) : Prop :=
  ∀ (c i : ℕ) serviceName, s.calls[c]? = some ⟨serviceName, .returned i⟩ →
    ∃ subchannel, s.registry.instances[i]? = some subchannel ∧ ∀ subchannel' endpoint handler,
      subchannel.registerHandler endpoint handler = .ok subchannel' →
      ∀ s', system.Steps { s with registry := s.registry.update i subchannel' } s' →
      ∀ server : FrameHandler, (∀ service, server.subchannels.lookup service = s'.registry.read service) →
      ∃ found, server.getSubchannel serviceName = .ok found ∧ found.getHandler endpoint = .ok handler

theorem handlersFound (hs : system.Reachable s) : HandlersFound s := by
  intro c i serviceName hc
  obtain ⟨hget, subchannel, hi⟩ := (Callers.oneInstance creates_looksAgain hs).stored c serviceName i hc
  refine ⟨subchannel, hi, fun subchannel' endpoint handler hregister s' hsteps server hserver => ?_⟩
  have hget' : s'.registry.get serviceName = some i := Callers.get_steps creates_looksAgain hsteps hget
  have hlen := (List.getElem?_eq_some_iff.1 hi).1
  obtain ⟨found, hfound, hhandler⟩ :=
    Callers.contents_steps (P := fun subchannel => subchannel.getHandler endpoint = .ok handler) creates_looksAgain
      (fun _ _ ⟨_, _, huse⟩ hold => SubChannel.getHandler_registerHandler huse hold) hsteps
      ⟨subchannel', List.getElem?_set_self hlen, SubChannel.getHandler_registered hregister⟩
  have hread : s'.registry.read serviceName = some found := by
    rw [Registry.read, hget']
    exact hfound
  refine ⟨found, ?_, hhandler⟩
  rw [FrameHandler.getSubchannel, hserver, hread]

end TChannel

namespace ConnectionPools

variable {SocketAddr Pool : Type} [DecidableEq SocketAddr]

/-- What becomes of a call of `get` that missed: it returns the pool that is stored meanwhile, or else what is
built for it. -/
structure BuiltIfMissing (s : Callers SocketAddr Pool RunError) : Prop where
  stored : ∀ (c : ℕ) addr i, s.calls[c]? = some ⟨addr, .missed⟩ → s.registry.get addr = some i →
    ∃ s', system.step s s' ∧ s'.registry = s.registry ∧ s'.calls[c]? = some ⟨addr, .returned i⟩
  built : ∀ (c : ℕ) addr pool, s.calls[c]? = some ⟨addr, .missed⟩ → s.registry.get addr = none →
    ∃ i s', system.step s s' ∧ s'.registry.instances[i]? = some pool ∧ s'.calls[c]? = some ⟨addr, .returned i⟩
  refused : ∀ (c : ℕ) addr e, s.calls[c]? = some ⟨addr, .missed⟩ → s.registry.get addr = none →
    ∃ s', system.step s s' ∧ s'.registry = s.registry ∧ s'.calls[c]? = some ⟨addr, .failed e⟩

theorem builtIfMissing (s : Callers SocketAddr Pool RunError) : BuiltIfMissing s := by
  refine ⟨fun c addr i hc hget => ?_, fun c addr pool hc hget => ?_, fun c addr e hc hget => ?_⟩
  · have hcreate : Creates s.registry addr (.ok i, s.registry) :=
      ⟨.error .timedOut, by rw [createPool, Registry.getOrCreate, hget]⟩
    exact ⟨_, .creates hc hcreate, rfl, List.getElem?_set_self (List.getElem?_eq_some_iff.1 hc).1⟩
  · have hcreate : Creates s.registry addr (.ok s.registry.instances.length,
        ⟨s.registry.entries.insert addr s.registry.instances.length, s.registry.instances ++ [pool]⟩) :=
      ⟨.ok pool, by rw [createPool, Registry.getOrCreate, hget]⟩
    exact ⟨_, _, .creates hc hcreate, List.getElem?_concat_length,
      List.getElem?_set_self (List.getElem?_eq_some_iff.1 hc).1⟩
  · have hcreate : Creates s.registry addr (.error e, s.registry) :=
      ⟨.error e, by rw [createPool, Registry.getOrCreate, hget]⟩
    exact ⟨_, .creates hc hcreate, rfl, List.getElem?_set_self (List.getElem?_eq_some_iff.1 hc).1⟩

end ConnectionPools

/-- Subchannels and connection pools are made once for each key. -/
theorem one_instance_per_key :
    (∀ s, TChannel.system.Reachable s → Callers.OneInstance TChannel.Creates TChannel.Registers s ∧
      TChannel.AlwaysMade s ∧ TChannel.HandlersFound s) ∧
    ∀ (SocketAddr Pool : Type) [DecidableEq SocketAddr] (s : Callers SocketAddr Pool RunError),
      ConnectionPools.system.Reachable s → Callers.OneInstance ConnectionPools.Creates ConnectionPools.Changes s ∧
        ConnectionPools.BuiltIfMissing s :=
  ⟨fun _ hs => ⟨Callers.oneInstance TChannel.creates_looksAgain hs, TChannel.alwaysMade hs, TChannel.handlersFound hs⟩,
    fun _ _ _ s hs => ⟨Callers.oneInstance ConnectionPools.creates_looksAgain hs, ConnectionPools.builtIfMissing s⟩⟩

/-- Two callers that miss one after the other get one subchannel. A pool that could not be built is built for the next
caller. -/
theorem two_callers_one_instance :
    (∃ s, TChannel.system.Reachable s ∧ s.calls = [⟨"s", .returned 0⟩, ⟨"s", .returned 0⟩, ⟨"t", .returned 1⟩] ∧
      Callers.OneInstance TChannel.Creates TChannel.Registers s ∧ TChannel.HandlersFound s) ∧
    ∃ s : Callers ℕ Unit RunError, ConnectionPools.system.Reachable s ∧
      s.calls = [⟨80, .failed .timedOut⟩, ⟨80, .returned 0⟩] ∧
      Callers.OneInstance ConnectionPools.Creates ConnectionPools.Changes s ∧ ConnectionPools.BuiltIfMissing s := by
  constructor
  · have h₀ := TransitionSystem.Reachable.start (show TChannel.system.init Callers.start from rfl)
    have h₃ := ((h₀.step (.calls "s")).step (.calls "s")).step (.calls "t")
    have h₆ := ((h₃.step (.misses (c := 0) rfl rfl)).step (.misses (c := 1) rfl rfl)).step (.misses (c := 2) rfl rfl)
    have h₉ := ((h₆.step (.creates (c := 0) rfl rfl)).step (.creates (c := 1) rfl rfl)).step (.creates (c := 2) rfl rfl)
    obtain ⟨hone, -, hfound⟩ := one_instance_per_key.1 _ h₉
    exact ⟨_, h₉, rfl, hone, hfound⟩
  · have h₀ := TransitionSystem.Reachable.start (show ConnectionPools.system.init (Callers.start : Callers ℕ Unit RunError) from rfl)
    have h₂ := (h₀.step (.calls 80)).step (.calls 80)
    have h₄ := (h₂.step (.misses (c := 0) rfl rfl)).step (.misses (c := 1) rfl rfl)
    have h₆ := (h₄.step (.creates (c := 0) rfl ⟨.error .timedOut, rfl⟩)).step (.creates (c := 1) rfl ⟨.ok (), rfl⟩)
    exact ⟨_, h₆, rfl, one_instance_per_key.2 ℕ Unit _ h₆⟩

end Tchannel
