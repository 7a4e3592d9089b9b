import KubePortForward.Verified.Simulation
import KubePortForward.Forwarder.PodWatch
import KubePortForward.Forwarder.Removal

/-!
# The forwarder and its pod watcher

The forwarder together with the watcher it was built on.  A call of the forwarder
asks `wait_for_ready_pod` for its pod, and other callers use the watcher as they
like.  The pod-change reactor receives what the watcher broadcasts and handles one
event after the other: for `Died` it runs `handle_pod_died`, which asks the store
whether the pod is still there, under the lock of the pool.

## Main results

* `watched_reaches` — the forwarder of a reachable state is reachable.
-/

namespace KubePortForward.Forwarder

open KubePortForward.Verified.Transition
open KubePortForward.Verified.Broadcast

/-- Where the pod-change reactor is: receiving, or in `handle_pod_died` as task `t`. -/
inductive ReactorPc where
  | next
  | handling (t : TaskId)
  deriving DecidableEq, Repr

/-- The forwarder and the watcher.  `asking` are the calls of `wait_for_ready_pod` that
tasks of the forwarder are in, `seen` is the position of the reactor's receiver. -/
structure Watched where
  fwd : State
  watch : Watch
  asking : TaskId → Option Nat
  reactor : ReactorPc
  seen : Nat

inductive WatchedAct where
  | watch (a : WatchAct)
  | ask (t : TaskId)
  | answer (t : TaskId)
  | fwd (a : Act)
  | reactor

/-- The steps of the forwarder that neither the watcher nor the reactor decides, and
the answer of `contains_identity` if it is what the store says. -/
def Watched.allows (s : Watched) : Act → Bool
  | .podDied _ => false
  | .task _ (.pod _) => false
  | .task _ (.contains found) =>
      match s.fwd.pool.target with
      | some target => found == s.watch.store.containsIdentity target.name target.uid
      | none => true
  | .abandon t => s.reactor != .handling t
  | _ => true

/-- The reactor receives its next event. -/
def reactorReceive (cfg : ForwarderConfig) (s : Watched) : Option Watched :=
  match recv CHANGE_CAPACITY s.watch.changes s.seen with
  | some (.message (.died name), seen) =>
      (step cfg s.fwd (.podDied name)).map fun fwd =>
        { s with fwd := fwd, seen := seen, reactor := .handling s.fwd.tasks.length }
  | some (_, seen) => some { s with seen := seen }
  | none => none

def watchedStep (cfg : ForwarderConfig) (wcfg : WatchConfig) (s : Watched) :
    WatchedAct → Option Watched
  | .watch a => (watchStep wcfg s.watch a).map fun watch => { s with watch := watch }
  | .ask t =>
      match s.fwd.tasks[t]?.map Task.pc, s.asking t with
      | some .lookup, none =>
          some { s with
            watch := { s.watch with calls := s.watch.calls ++ [.waitForReadyPod] }
            asking := Function.update s.asking t (some s.watch.calls.length) }
      | _, _ => none
  | .answer t =>
      match (s.asking t).bind fun c => s.watch.calls[c]?.map Call.pc with
      | some (.returned result) =>
          (step cfg s.fwd (.task t (.pod result))).map fun fwd =>
            { s with fwd := fwd, asking := Function.update s.asking t none }
      | _ => none
  | .fwd a =>
      if s.allows a then (step cfg s.fwd a).map fun fwd => { s with fwd := fwd } else none
  | .reactor =>
      match s.reactor with
      | .next => reactorReceive cfg s
      | .handling t =>
          match s.fwd.tasks[t]?.map Task.pc with
          | some .finished => some { s with reactor := .next }
          | _ => none

/-- A forwarder with settings `cfg` on a watcher with settings `wcfg`. -/
def watched (cfg : ForwarderConfig) (wcfg : WatchConfig) : System Watched WatchedAct where
  init := { fwd := .init, watch := .init, asking := fun _ => none, reactor := .next, seen := 0 }
  step := watchedStep cfg wcfg

/-- Every step is one of the watcher, one of the forwarder or one of the reactor; the
reactor's `Died` starts a task of the forwarder. -/
theorem watchedStep_cases {cfg : ForwarderConfig} {wcfg : WatchConfig} {s s' : Watched}
    {a : WatchedAct} (h : watchedStep cfg wcfg s a = some s') :
    (∃ b watch, a = .watch b ∧ watchStep wcfg s.watch b = some watch ∧
      s' = { s with watch := watch }) ∨
    (∃ calls asking, s' = { s with
      watch := { s.watch with calls := calls }, asking := asking }) ∨
    (∃ t result fwd asking, step cfg s.fwd (.task t (.pod result)) = some fwd ∧
      s' = { s with fwd := fwd, asking := asking }) ∨
    (∃ b fwd, a = .fwd b ∧ s.allows b = true ∧ step cfg s.fwd b = some fwd ∧
      s' = { s with fwd := fwd }) ∨
    (∃ name seen, a = .reactor ∧ s.reactor = .next ∧
      recv CHANGE_CAPACITY s.watch.changes s.seen = some (.message (.died name), seen) ∧
      s' = { s with
        fwd := s.fwd.spawn { pc := .acquire (.podDied name), port := 0 }
        seen := seen, reactor := .handling s.fwd.tasks.length }) ∨
    (∃ r seen, a = .reactor ∧ s.reactor = .next ∧
      recv CHANGE_CAPACITY s.watch.changes s.seen = some (r, seen) ∧
      (∀ name, r ≠ .message (.died name)) ∧ s' = { s with seen := seen }) ∨
    (∃ t k, a = .reactor ∧ s.reactor = .handling t ∧ s.fwd.tasks[t]? = some k ∧
      k.pc = .finished ∧ s' = { s with reactor := .next }) := by
  cases a with
  | watch b =>
      obtain ⟨watch, hw, rfl⟩ := Option.map_eq_some_iff.1 h
      exact .inl ⟨b, watch, rfl, hw, rfl⟩
  | ask t =>
      simp only [watchedStep] at h
      split at h <;> cases h
      exact .inr (.inl ⟨_, _, rfl⟩)
  | answer t =>
      simp only [watchedStep] at h
      split at h
      · obtain ⟨fwd, hf, rfl⟩ := Option.map_eq_some_iff.1 h
        exact .inr (.inr (.inl ⟨t, _, fwd, _, hf, rfl⟩))
      · contradiction
  | fwd b =>
      simp only [watchedStep] at h
      split at h
      · next hallows =>
          obtain ⟨fwd, hf, rfl⟩ := Option.map_eq_some_iff.1 h
          exact .inr (.inr (.inr (.inl ⟨b, fwd, rfl, hallows, hf, rfl⟩)))
      · contradiction
  | reactor =>
      refine .inr (.inr (.inr (.inr ?_)))
      simp only [watchedStep] at h
      split at h
      · next hpc =>
          unfold reactorReceive at h
          split at h
          · next name seen hrecv =>
              obtain ⟨fwd, hf, rfl⟩ := Option.map_eq_some_iff.1 h
              cases hf
              exact .inl ⟨name, seen, rfl, hpc, hrecv, rfl⟩
          · next r seen hnot hrecv =>
              cases h
              exact .inr (.inl ⟨r, seen, rfl, hpc, hrecv, fun name heq => hnot name heq, rfl⟩)
          · contradiction
      · next t hpc =>
          split at h
          · next htask =>
              cases h
              obtain ⟨k, hk, hfin⟩ := Option.map_eq_some_iff.1 htask
              exact .inr (.inr ⟨t, k, rfl, hpc, hk, hfin, rfl⟩)
          · contradiction

theorem watched_reaches (cfg : ForwarderConfig) (wcfg : WatchConfig) :
    (watched cfg wcfg).Invariant anyStep (fun s => (forwarder cfg).Reaches anyStep s.fwd) := by
  have htrue : (watched cfg wcfg).Invariant anyStep (fun _ => True) := fun _ _ _ _ => trivial
  refine simulation Watched.fwd htrue rfl ?_
  intro s a s' _ _ h
  obtain ⟨b, watch, -, -, rfl⟩ | ⟨calls, asking, rfl⟩ | ⟨t, result, fwd, asking, hf, rfl⟩ |
    ⟨b, fwd, -, -, hf, rfl⟩ | ⟨name, seen, -, -, -, rfl⟩ | ⟨r, seen, -, -, -, -, rfl⟩ |
    ⟨t, k, -, -, -, -, rfl⟩ := watchedStep_cases h
  · exact .inl rfl
  · exact .inl rfl
  · exact .inr ⟨.task t (.pod result), trivial, hf⟩
  · exact .inr ⟨b, trivial, hf⟩
  · exact .inr ⟨.podDied name, trivial, rfl⟩
  · exact .inl rfl
  · exact .inl rfl

end KubePortForward.Forwarder
