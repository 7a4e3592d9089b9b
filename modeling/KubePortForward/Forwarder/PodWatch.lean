import KubePortForward.Verified.Transition
import KubePortForward.Verified.Broadcast
import KubePortForward.Forwarder.Pool

/-!
# The pod watcher

`pod_watch.rs` as a transition system.  The reflector keeps the store of pods up
to date and hands the name of every pod that was applied to the subscriber task,
which looks the pod up and runs `update_latest`.  Any number of callers are in
`ready_pod` or `wait_for_ready_pod`.  All of them read and write the cached ready
pod `latest_ready`, and whoever changes it announces that on a broadcast channel.

Every access to the store, to the cache and to the channel is a step of its own.
The order in which `store.state()` lists the pods is not specified, so a scan is
labelled with it.  The wait of a caller ends at any time, as it is bounded by a
timeout.
-/

namespace KubePortForward.Forwarder

open KubePortForward.Verified.Transition
open KubePortForward.Verified.Broadcast

/-! ## Pods -/

/-- The fields of `PodCondition` that the watcher reads. -/
structure PodCondition where
  type : String
  status : String
  deriving DecidableEq, Repr

/-- The fields of `PodStatus` that the watcher reads. -/
structure PodStatus where
  phase : Option String
  conditions : Option (List PodCondition)
  deriving DecidableEq, Repr

/-- The fields of a pod that the watcher reads; `name` is what `name_any` returns. -/
structure WatchedPod where
  name : String
  uid : Option String
  deletionTimestamp : Option String
  status : Option PodStatus
  deriving DecidableEq, Repr

/-- `PodSelector`. -/
inductive PodSelector where
  | name (name : String)
  | labels (selector : String)
  deriving DecidableEq, Repr

/-- `PodReadiness`. -/
inductive PodReadiness where
  | ready
  | running
  deriving DecidableEq, Repr

/-- `PodChange`. -/
inductive PodChange where
  | ready (name : String)
  | died (name : String)
  deriving DecidableEq, Repr

/-- What a watcher is set up with. -/
structure WatchConfig where
  selector : PodSelector
  readiness : PodReadiness

/-- `matches_selector`. -/
def matchesSelector (pod : WatchedPod) : PodSelector → Bool
  | .name name => pod.name == name
  | .labels _ => true

/-- `is_pod_selected`. -/
def isPodSelected (pod : WatchedPod) (selector : PodSelector) (readiness : PodReadiness) : Bool :=
  if !matchesSelector pod selector then false
  else match pod.status with
  | none => false
  | some status =>
      if status.phase ≠ some "Running" then false
      else match readiness with
      | .running => pod.deletionTimestamp.isNone
      | .ready =>
          pod.deletionTimestamp.isNone &&
            ((status.conditions.map fun cs =>
              cs.any fun c => c.type == "Ready" && c.status == "True").getD false)

def WatchConfig.selects (cfg : WatchConfig) (pod : WatchedPod) : Bool :=
  isPodSelected pod cfg.selector cfg.readiness

/-- The pod as it is cached and handed out. -/
def WatchedPod.identity (pod : WatchedPod) : ReadyPod where
  name := pod.name
  uid := pod.uid

/-! ## The store -/

/-- The reflector's store: at most one pod of each name. -/
structure PodStore where
  pods : List WatchedPod
  distinct : (pods.map (·.name)).Nodup

namespace PodStore

def empty : PodStore := ⟨[], List.nodup_nil⟩

def get (store : PodStore) (name : String) : Option WatchedPod :=
  store.pods.find? (·.name == name)

/-- Event `Delete`: the pod of that name goes. -/
def delete (store : PodStore) (name : String) : PodStore where
  pods := store.pods.filter (·.name != name)
  distinct := store.distinct.sublist (List.filter_sublist.map _)

/-- Event `Apply`: the pod replaces the one of its name. -/
def apply (store : PodStore) (pod : WatchedPod) : PodStore where
  pods := (store.delete pod.name).pods ++ [pod]
  distinct := by
    rw [List.map_append, List.nodup_append]
    refine ⟨(store.delete pod.name).distinct, by simp, ?_⟩
    intro name hname other hother
    simp only [List.map_cons, List.map_nil, List.mem_singleton] at hother
    subst hother
    rintro rfl
    obtain ⟨old, hold, heq⟩ := List.mem_map.1 hname
    simp [delete, heq] at hold

/-- A relist, from `Init` to `InitDone`: the store is replaced as a whole. -/
def relist (pods : List WatchedPod) : PodStore := pods.foldl apply empty

theorem get_eq_some {store : PodStore} {name : String} {pod : WatchedPod} :
    store.get name = some pod ↔ pod ∈ store.pods ∧ pod.name = name := by
  constructor
  · intro h
    exact ⟨List.mem_of_find?_eq_some h, by simpa using List.find?_some h⟩
  · rintro ⟨hin, rfl⟩
    cases hfind : store.get pod.name with
    | none =>
        have hnone := List.find?_eq_none.1 hfind pod hin
        simp at hnone
    | some other =>
        have hother : other ∈ store.pods := List.mem_of_find?_eq_some hfind
        have hname : other.name = pod.name := by simpa using List.find?_some hfind
        rw [List.inj_on_of_nodup_map store.distinct hother hin hname]

theorem mem_delete {store : PodStore} {name : String} {pod : WatchedPod} :
    pod ∈ (store.delete name).pods ↔ pod ∈ store.pods ∧ pod.name ≠ name := by
  simp [delete]

theorem mem_apply {store : PodStore} {pod other : WatchedPod} :
    other ∈ (store.apply pod).pods ↔
      (other ∈ store.pods ∧ other.name ≠ pod.name) ∨ other = pod := by
  simp [apply, mem_delete]

/-- `contains_identity`. -/
def containsIdentity (store : PodStore) (name : String) (uid : Option String) : Bool :=
  store.pods.any fun pod => pod.name == name && pod.uid == uid

end PodStore

/-! ## Callers -/

/-- The scan of `ready_pod` over the pods as the store lists them: the cached pod if
it comes up, and else the first that is selected. -/
def scanPods (cfg : WatchConfig) (cached : Option ReadyPod) :
    List WatchedPod → Option ReadyPod → ReadyPod ⊕ Option ReadyPod
  | [], first => .inr first
  | pod :: pods, first =>
      if cfg.selects pod then
        if cached = some pod.identity then .inl pod.identity
        else scanPods cfg cached pods (first.or (some pod.identity))
      else scanPods cfg cached pods first

/-- Where a caller is: `ready_pod` loads the cache, scans the store and writes the
cache; `wait_for_ready_pod` subscribes first and looks at its token, and receives
when `ready_pod` found nothing. -/
inductive CallPc where
  | subscribe
  | checkCancelled
  | load
  | scan (cached : Option ReadyPod)
  | write (found : Option ReadyPod)
  | receive
  | returned (result : Option ReadyPod)
  deriving DecidableEq, Repr

/-- A call of `ready_pod`, or of `wait_for_ready_pod` if it `waits`; `next` is the
position of its receiver. -/
structure Call where
  pc : CallPc
  waits : Bool
  next : Nat := 0
  deriving DecidableEq, Repr

/-- `ready_pod`. -/
def Call.readyPod : Call where
  pc := .load
  waits := false

/-- `wait_for_ready_pod`. -/
def Call.waitForReadyPod : Call where
  pc := .subscribe
  waits := true

/-- What the environment answers to a step of a caller. -/
inductive CallChoice where
  | go
  | list (pods : List WatchedPod)
  | stop
  deriving DecidableEq, Repr

/-! ## The watcher -/

/-- Where the reflector task is: it has taken a `Delete` out of the stream, and may
have found the deleted pod in the cache. -/
inductive ReflectorPc where
  | next
  | handleDeleted (pod : ReadyPod)
  | announceDied (name : String)
  deriving DecidableEq, Repr

/-- Where the subscriber task is in `update_latest`. -/
inductive SubscriberPc where
  | next
  | loadLatest (pod : WatchedPod)
  | storeLatest (pod : WatchedPod)
  | announceReady (name : String)
  deriving DecidableEq, Repr

/-- Capacity of the channel of `PodChange`s. -/
def CHANGE_CAPACITY : Nat := 16

/-- `PodWatcher`.  `applied` are the names the reflector has handed to the
subscriber, `changes` is everything that was broadcast. -/
structure Watch where
  store : PodStore
  latestReady : Option ReadyPod
  applied : List String
  changes : List PodChange
  reflector : ReflectorPc
  subscriber : SubscriberPc
  calls : List Call

def Watch.init : Watch where
  store := .empty
  latestReady := none
  applied := []
  changes := []
  reflector := .next
  subscriber := .next
  calls := []

inductive WatchAct where
  | applyPod (pod : WatchedPod)
  | deletePod (pod : ReadyPod)
  | relist (pods : List WatchedPod)
  | reflector
  | subscriber
  | readyPod
  | waitForReadyPod
  | call (c : Nat) (choice : CallChoice)
  deriving DecidableEq, Repr

/-- The comparison of `update_latest`. -/
def latestChanged (prev : Option ReadyPod) (pod : WatchedPod) : Bool :=
  match prev with
  | some cur => if cur.name = pod.name then cur.uid ≠ pod.uid else false
  | none => true

/-- The next access of the subscriber task.  The stream of applied pods yields the
pod as it is in the store by then, and passes over one that is gone. -/
def subscriberStep (cfg : WatchConfig) (s : Watch) : Option Watch :=
  match s.subscriber with
  | .next =>
      match s.applied with
      | [] => none
      | name :: rest =>
          match s.store.get name with
          | some pod => some { s with applied := rest, subscriber := .loadLatest pod }
          | none => some { s with applied := rest }
  | .loadLatest pod =>
      if cfg.selects pod && latestChanged s.latestReady pod then
        some { s with subscriber := .storeLatest pod }
      else some { s with subscriber := .next }
  | .storeLatest pod =>
      some { s with latestReady := some pod.identity, subscriber := .announceReady pod.name }
  | .announceReady name =>
      some { s with changes := s.changes ++ [.ready name], subscriber := .next }

/-- The next access of the reflector task inside `handle_deleted_pod`. -/
def reflectorStep (s : Watch) : Option Watch :=
  match s.reflector with
  | .next => none
  | .handleDeleted pod =>
      if s.latestReady = some pod then
        some { s with latestReady := none, reflector := .announceDied pod.name }
      else some { s with reflector := .next }
  | .announceDied name =>
      some { s with changes := s.changes ++ [.died name], reflector := .next }

def Watch.setCall (s : Watch) (c : Nat) (call : Call) : Watch :=
  { s with calls := s.calls.set c call }

/-- The next access of a caller. -/
def callStep (cfg : WatchConfig) (s : Watch) (c : Nat) (call : Call) : CallChoice → Option Watch
  | .go =>
      match call.pc with
      | .subscribe =>
          some (s.setCall c { call with pc := .checkCancelled, next := s.changes.length })
      | .checkCancelled => some (s.setCall c { call with pc := .load })
      | .load => some (s.setCall c { call with pc := .scan s.latestReady })
      | .write (some ready) =>
          some ({ s with latestReady := some ready }.setCall c
            { call with pc := .returned (some ready) })
      | .write none =>
          some ({ s with latestReady := none }.setCall c
            { call with pc := if call.waits then .receive else .returned none })
      | .receive =>
          match recv CHANGE_CAPACITY s.changes call.next with
          | some (.message (.died _), next) => some (s.setCall c { call with next := next })
          | some (_, next) => some (s.setCall c { call with pc := .load, next := next })
          | none => none
      | _ => none
  | .list pods =>
      match call.pc with
      | .scan cached =>
          if pods.isPerm s.store.pods then
            match scanPods cfg cached pods none with
            | .inl ready => some (s.setCall c { call with pc := .returned (some ready) })
            | .inr found => some (s.setCall c { call with pc := .write found })
          else none
      | _ => none
  | .stop =>
      match call.pc with
      | .checkCancelled => some (s.setCall c { call with pc := .returned none })
      | .receive => some (s.setCall c { call with pc := .returned none })
      | _ => none

/-- The reflector takes the next event only when it is done with the last one. -/
def watchStep (cfg : WatchConfig) (s : Watch) : WatchAct → Option Watch
  | .applyPod pod =>
      if s.reflector = .next then
        some { s with store := s.store.apply pod, applied := s.applied ++ [pod.name] }
      else none
  | .deletePod pod =>
      if s.reflector = .next then
        some { s with store := s.store.delete pod.name, reflector := .handleDeleted pod }
      else none
  | .relist pods =>
      if s.reflector = .next then
        some { s with
          store := .relist pods
          applied := s.applied ++ (PodStore.relist pods).pods.map (·.name) }
      else none
  | .reflector => reflectorStep s
  | .subscriber => subscriberStep cfg s
  | .readyPod => some { s with calls := s.calls ++ [.readyPod] }
  | .waitForReadyPod => some { s with calls := s.calls ++ [.waitForReadyPod] }
  | .call c choice =>
      match s.calls[c]? with
      | some call => callStep cfg s c call choice
      | none => none

/-- A watcher with settings `cfg`. -/
def watcher (cfg : WatchConfig) : System Watch WatchAct where
  init := .init
  step := watchStep cfg

end KubePortForward.Forwarder
