import KubePortForward.Forwarder.PodWatch

/-!
# Waiting for a ready pod

A caller of `wait_for_ready_pod` whose scan found nothing waits for a `Ready`
event.  `update_latest` sends one only if the pod changes the cache, and callers
write the cache as well, so a pod can become ready without an event.

## Main results

* `no_lost_wakeup` — a run in which every pod that gets ready while somebody waits
  changes the cache leaves no caller waiting next to a ready pod.
* `ready_pod_hides_event` — a run in which another caller caches the pod first.
-/

namespace KubePortForward.Forwarder

open KubePortForward.Verified.Transition
open KubePortForward.Verified.Broadcast

/-! ## What a waiting caller relies on -/

/-- The caller has found no ready pod and goes on to receive, or receives. -/
def Call.waiting (call : Call) : Bool :=
  match call.pc with
  | .write none => call.waits
  | .receive => true
  | _ => false

def PodChange.isReady : PodChange → Bool
  | .ready _ => true
  | .died _ => false

/-- What the caller will receive makes it scan again. -/
def Covered (s : Watch) (call : Call) : Prop :=
  Undelivered (fun change => change.isReady = true) s.changes call.next s.changes.length ∨
    call.next + CHANGE_CAPACITY < s.changes.length

/-- The subscriber has decided to announce a ready pod. -/
def SubscriberPc.announces : SubscriberPc → Bool
  | .storeLatest _ => true
  | .announceReady _ => true
  | _ => false

/-- The subscriber has still to look at the pod, or is about to announce one. -/
def InHand (s : Watch) (pod : WatchedPod) : Prop :=
  pod.name ∈ s.applied ∨ s.subscriber = .loadLatest pod ∨ s.subscriber.announces = true

structure Signalled (cfg : WatchConfig) (s : Watch) : Prop where
  behind : ∀ call ∈ s.calls, call.next ≤ s.changes.length
  current : ∀ pod, s.subscriber = .loadLatest pod → ∀ other ∈ s.store.pods,
    other.name = pod.name → other = pod ∨ pod.name ∈ s.applied
  signal : ∀ call ∈ s.calls, call.waiting = true → Covered s call ∨
    ∀ pod ∈ s.store.pods, cfg.selects pod = true → InHand s pod

/-- A ready pod that the subscriber compares with the cache changes it, unless nobody
waits without an event that makes it scan again. -/
def ReadyAnnounced (cfg : WatchConfig) (s : Watch) : WatchAct → Prop
  | .subscriber =>
      match s.subscriber with
      | .loadLatest pod =>
          cfg.selects pod = true → s.store.get pod.name = some pod →
            latestChanged s.latestReady pod = true ∨
              ∀ call ∈ s.calls, call.waiting = true → Covered s call
      | _ => True
  | _ => True

instance (s : Watch) (call : Call) : Decidable (Covered s call) := by
  unfold Covered
  infer_instance

instance (cfg : WatchConfig) (s : Watch) (a : WatchAct) : Decidable (ReadyAnnounced cfg s a) := by
  unfold ReadyAnnounced
  (repeat' split) <;> infer_instance

/-! ## Steps -/

theorem Covered.send {s s' : Watch} {call : Call} (h : Covered s call) {change : PodChange}
    (hchanges : s'.changes = s.changes ++ [change]) : Covered s' call := by
  unfold Covered at h ⊢
  rw [hchanges]
  rcases h with hready | hlag
  · exact .inl ((hready.of_append [change]).mono (by simp))
  · right
    rw [List.length_append]
    omega

/-- A scan that finds nothing saw no pod that is selected. -/
theorem scanPods_nothing {cfg : WatchConfig} {cached first : Option ReadyPod}
    {pods : List WatchedPod} (h : scanPods cfg cached pods first = .inr none) :
    first = none ∧ ∀ pod ∈ pods, cfg.selects pod = false := by
  induction pods generalizing first with
  | nil =>
      simp only [scanPods, Sum.inr.injEq] at h
      exact ⟨h, by simp⟩
  | cons pod pods ih =>
      simp only [scanPods] at h
      split at h
      · split at h
        · contradiction
        · have hfirst := (ih h).1
          cases first <;> contradiction
      · next hnot =>
          obtain ⟨hfirst, hpods⟩ := ih h
          refine ⟨hfirst, fun other hother => ?_⟩
          rcases List.mem_cons.1 hother with rfl | hin
          · simpa using hnot
          · exact hpods other hin

/-- The store, the subscriber and its queue are as before, and no event was sent. -/
structure SameFeed (s s' : Watch) : Prop where
  store : s'.store = s.store
  applied : s'.applied = s.applied
  subscriber : s'.subscriber = s.subscriber
  changes : s'.changes = s.changes

/-- A step of a caller touches only the cache and the caller. -/
theorem callStep_cases {cfg : WatchConfig} {s s' : Watch} {c : Nat} {call : Call}
    {choice : CallChoice} (hle : call.next ≤ s.changes.length)
    (h : callStep cfg s c call choice = some s') :
    SameFeed s s' ∧ ∃ call', s'.calls = s.calls.set c call' ∧
      call'.next ≤ s.changes.length ∧
      (call'.waiting = true → (∀ pod ∈ s.store.pods, cfg.selects pod = false) ∨
        (call.waiting = true ∧ (Covered s call → Covered s call'))) := by
  cases choice with
  | go =>
      simp only [callStep] at h
      split at h <;> try contradiction
      · cases h
        exact ⟨⟨rfl, rfl, rfl, rfl⟩, _, rfl, le_rfl, fun hw => by contradiction⟩
      · cases h
        exact ⟨⟨rfl, rfl, rfl, rfl⟩, _, rfl, hle, fun hw => by contradiction⟩
      · cases h
        exact ⟨⟨rfl, rfl, rfl, rfl⟩, _, rfl, hle, fun hw => by contradiction⟩
      · cases h
        exact ⟨⟨rfl, rfl, rfl, rfl⟩, _, rfl, hle, fun hw => by contradiction⟩
      · next hpc =>
          cases h
          refine ⟨⟨rfl, rfl, rfl, rfl⟩, _, rfl, hle, fun hw => .inr ⟨?_, fun hcov => hcov⟩⟩
          cases hwaits : call.waits with
          | true => simp [Call.waiting, hpc, hwaits]
          | false => simp [Call.waiting, hwaits] at hw
      · next hpc =>
          split at h <;> cases h
          · next name next hrecv =>
              refine ⟨⟨rfl, rfl, rfl, rfl⟩, _, rfl, recv_le hrecv, fun _ => .inr ⟨?_, ?_⟩⟩
              · simp [Call.waiting, hpc]
              · intro hcov
                rcases hcov with hready | hlag
                · rcases recv_undelivered hrecv hready with hdied | hready
                  · contradiction
                  · exact .inl hready
                · obtain ⟨heq, -⟩ | ⟨x, -, hnear, -⟩ := recv_cases hrecv
                  · contradiction
                  · omega
          · next r next hnot hrecv =>
              exact ⟨⟨rfl, rfl, rfl, rfl⟩, _, rfl, recv_le hrecv, fun hw => by contradiction⟩
  | list pods =>
      simp only [callStep] at h
      split at h <;> try contradiction
      split at h <;> try contradiction
      next hperm =>
        split at h <;> cases h
        · exact ⟨⟨rfl, rfl, rfl, rfl⟩, _, rfl, hle, fun hw => by contradiction⟩
        · next found hscan =>
            refine ⟨⟨rfl, rfl, rfl, rfl⟩, _, rfl, hle, fun hw => .inl fun pod hpod => ?_⟩
            cases found with
            | none =>
                refine (scanPods_nothing hscan).2 pod ?_
                exact (List.isPerm_iff.1 hperm).mem_iff.2 hpod
            | some ready => contradiction
  | stop =>
      simp only [callStep] at h
      split at h <;> cases h
      · exact ⟨⟨rfl, rfl, rfl, rfl⟩, _, rfl, hle, fun hw => by contradiction⟩
      · exact ⟨⟨rfl, rfl, rfl, rfl⟩, _, rfl, hle, fun hw => by contradiction⟩

theorem Signalled.call {cfg : WatchConfig} {s s' : Watch} {c : Nat} {call : Call}
    {choice : CallChoice} (hI : Signalled cfg s) (hcall : s.calls[c]? = some call)
    (h : callStep cfg s c call choice = some s') : Signalled cfg s' := by
  have hin : call ∈ s.calls := List.mem_of_getElem? hcall
  obtain ⟨⟨hstore, happlied, hsub, hchanges⟩, call', hcalls, hle, hwaits⟩ :=
    callStep_cases (hI.behind call hin) h
  have hhand : ∀ pod, InHand s pod → InHand s' pod := by
    intro pod hpod
    unfold InHand
    rw [happlied, hsub]
    exact hpod
  have hcovered : ∀ other, Covered s other → Covered s' other := by
    intro other hother
    unfold Covered
    rw [hchanges]
    exact hother
  have hmem : ∀ other ∈ s'.calls, other ∈ s.calls ∨ other = call' := by
    intro other hother
    rw [hcalls] at hother
    exact List.mem_or_eq_of_mem_set hother
  refine ⟨fun other hother => ?_, fun pod hpc other hother hname => ?_,
    fun other hother hw => ?_⟩
  · rw [hchanges]
    rcases hmem other hother with hold | rfl
    · exact hI.behind other hold
    · exact hle
  · rw [hsub] at hpc
    rw [hstore] at hother
    rw [happlied]
    exact hI.current pod hpc other hother hname
  · rw [hstore]
    rcases hmem other hother with hold | rfl
    · exact (hI.signal other hold hw).imp (hcovered other)
        fun hall pod hpod hsel => hhand pod (hall pod hpod hsel)
    · rcases hwaits hw with hnone | ⟨hbefore, hcov⟩
      · right
        intro pod hpod hsel
        rw [hnone pod hpod] at hsel
        contradiction
      · exact (hI.signal call hin hbefore).imp (fun h => hcovered other (hcov h))
          fun hall pod hpod hsel => hhand pod (hall pod hpod hsel)

/-- The subscriber takes a pod up, passes over it or announces it. -/
theorem Signalled.subscriber {cfg : WatchConfig} {s s' : Watch} (hI : Signalled cfg s)
    (hok : ReadyAnnounced cfg s .subscriber) (h : subscriberStep cfg s = some s') :
    Signalled cfg s' := by
  unfold subscriberStep at h
  split at h
  · next hpc =>
      split at h
      · contradiction
      · next name rest happlied =>
          -- What the subscriber takes up is the pod as it is in the store.
          have hold : ∀ pod, InHand s pod → pod.name = name ∨ pod.name ∈ rest := by
            intro pod hpod
            rcases hpod with hin | heq | heq
            · rw [happlied] at hin
              simpa using hin
            · rw [hpc] at heq
              contradiction
            · rw [hpc] at heq
              contradiction
          split at h
          · next pod hget =>
              cases h
              obtain ⟨hin, hname⟩ := PodStore.get_eq_some.1 hget
              refine ⟨hI.behind, fun p hp other hother heq => .inl ?_,
                fun call hcall hw => (hI.signal call hcall hw).imp id
                  fun hall other hother hsel => ?_⟩
              · cases hp
                exact List.inj_on_of_nodup_map s.store.distinct hother hin heq
              · rcases hold other (hall other hother hsel) with heq | hrest
                · refine .inr (.inl ?_)
                  show SubscriberPc.loadLatest pod = .loadLatest other
                  rw [List.inj_on_of_nodup_map s.store.distinct hother hin
                    (heq.trans hname.symm)]
                · exact .inl hrest
          · next hget =>
              cases h
              refine ⟨hI.behind, fun p hp => ?_, fun call hcall hw =>
                (hI.signal call hcall hw).imp id fun hall other hother hsel => ?_⟩
              · rw [show ({ s with applied := rest } : Watch).subscriber = .next from hpc] at hp
                contradiction
              · rcases hold other (hall other hother hsel) with heq | hrest
                · rw [PodStore.get_eq_some.2 ⟨hother, heq⟩] at hget
                  contradiction
                · exact .inl hrest
  · next pod hpc =>
      split at h
      · cases h
        refine ⟨hI.behind, fun p hp => by contradiction, fun call hcall hw =>
          (hI.signal call hcall hw).imp id fun _ _ _ _ => .inr (.inr rfl)⟩
      · next hunchanged =>
          cases h
          refine ⟨hI.behind, fun p hp => by contradiction, fun call hcall hw => ?_⟩
          rcases hI.signal call hcall hw with hcov | hall
          · exact .inl hcov
          · -- A selected pod that is passed over needs nobody to be told.
            by_cases hmissed : ∃ q ∈ s.store.pods, cfg.selects q = true ∧ q.name ∉ s.applied
            · obtain ⟨q, hq, hsel, hnot⟩ := hmissed
              have hheld : q = pod := by
                rcases hall q hq hsel with hin | heq | heq
                · exact absurd hin hnot
                · rw [hpc] at heq
                  cases heq
                  rfl
                · rw [hpc] at heq
                  contradiction
              subst hheld
              simp only [ReadyAnnounced, hpc] at hok
              rcases hok hsel (PodStore.get_eq_some.2 ⟨hq, rfl⟩) with hchanged | hcov
              · simp [hsel, hchanged] at hunchanged
              · exact .inl (hcov call hcall hw)
            · right
              intro q hq hsel
              by_contra hnot
              exact hmissed ⟨q, hq, hsel, fun hin => hnot (.inl hin)⟩
  · cases h
    exact ⟨hI.behind, fun p hp => by contradiction, fun call hcall hw =>
      (hI.signal call hcall hw).imp id fun _ _ _ _ => .inr (.inr rfl)⟩
  · next name hpc =>
      cases h
      refine ⟨fun call hcall => ?_, fun p hp => by contradiction, fun call hcall hw => .inl ?_⟩
      · rw [List.length_append]
        exact (hI.behind call hcall).trans (Nat.le_add_right _ _)
      · exact .inl (undelivered_snoc rfl (hI.behind call hcall))

theorem Signalled.reflector {cfg : WatchConfig} {s s' : Watch} (hI : Signalled cfg s)
    (h : reflectorStep s = some s') : Signalled cfg s' := by
  unfold reflectorStep at h
  split at h
  · contradiction
  · split at h <;> cases h <;> exact ⟨hI.behind, hI.current, hI.signal⟩
  · next name hpc =>
      cases h
      refine ⟨fun call hcall => ?_, hI.current, fun call hcall hw =>
        (hI.signal call hcall hw).imp (fun hcov => hcov.send rfl) id⟩
      rw [List.length_append]
      exact (hI.behind call hcall).trans (Nat.le_add_right _ _)

theorem Signalled.start {cfg : WatchConfig} {s : Watch} {call : Call} (hI : Signalled cfg s)
    (hnext : call.next = 0) (hidle : call.waiting = false) :
    Signalled cfg { s with calls := s.calls ++ [call] } := by
  refine ⟨fun other hother => ?_, hI.current, fun other hother hw => ?_⟩
  · rcases List.mem_append.1 hother with hold | hnew
    · exact hI.behind other hold
    · rw [List.mem_singleton.1 hnew, hnext]
      exact Nat.zero_le _
  · rcases List.mem_append.1 hother with hold | hnew
    · exact hI.signal other hold hw
    · rw [List.mem_singleton.1 hnew, hidle] at hw
      contradiction

theorem step_signalled {cfg : WatchConfig} {s s' : Watch} {a : WatchAct}
    (hI : Signalled cfg s) (hok : ReadyAnnounced cfg s a)
    (h : watchStep cfg s a = some s') : Signalled cfg s' := by
  have hhand : ∀ {store : PodStore} {more : List String} {reflector : ReflectorPc}
      (pod : WatchedPod), InHand s pod →
      InHand { s with store := store, applied := s.applied ++ more, reflector := reflector } pod :=
    fun pod hpod => hpod.imp (List.mem_append_left _) id
  cases a with
  | applyPod pod =>
      simp only [watchStep] at h
      split at h <;> cases h
      refine ⟨hI.behind, fun p hp other hother hname => ?_, fun call hcall hw =>
        (hI.signal call hcall hw).imp id fun hall other hother hsel => ?_⟩
      · rcases PodStore.mem_apply.1 hother with ⟨hin, -⟩ | rfl
        · exact (hI.current p hp other hin hname).imp id (List.mem_append_left _)
        · exact .inr (List.mem_append_right _ (by simp [hname]))
      · rcases PodStore.mem_apply.1 hother with ⟨hin, -⟩ | rfl
        · exact hhand other (hall other hin hsel)
        · exact .inl (List.mem_append_right _ (by simp))
  | deletePod pod =>
      simp only [watchStep] at h
      split at h <;> cases h
      refine ⟨hI.behind, fun p hp other hother hname => ?_, fun call hcall hw =>
        (hI.signal call hcall hw).imp id fun hall other hother hsel => ?_⟩
      · exact hI.current p hp other (PodStore.mem_delete.1 hother).1 hname
      · exact hall other (PodStore.mem_delete.1 hother).1 hsel
  | relist pods =>
      simp only [watchStep] at h
      split at h <;> cases h
      refine ⟨hI.behind, fun p hp other hother hname => .inr ?_, fun call hcall hw =>
        .inr fun other hother hsel => .inl ?_⟩
      · rw [← hname]
        exact List.mem_append_right _ (List.mem_map_of_mem hother)
      · exact List.mem_append_right _ (List.mem_map_of_mem hother)
  | reflector => exact hI.reflector h
  | subscriber => exact hI.subscriber hok h
  | readyPod =>
      cases h
      exact hI.start rfl rfl
  | waitForReadyPod =>
      cases h
      exact hI.start rfl rfl
  | call c choice =>
      simp only [watchStep] at h
      split at h
      · next call hcall => exact hI.call hcall h
      · contradiction

theorem signalled_invariant (cfg : WatchConfig) :
    (watcher cfg).Invariant (ReadyAnnounced cfg) (Signalled cfg) := by
  apply Invariant.of_step
  · constructor <;> simp [watcher, Watch.init, PodStore.empty]
  · intro s a s' hI hok hs
    exact step_signalled hI hok hs

/-! ## No lost wake-up -/

/-- In every run in which a ready pod that the subscriber looks at changes the cache
whenever somebody waits unnoticed: a caller that is blocked with nothing to receive,
while the subscriber has nothing left to do, has no ready pod in the store. -/
theorem no_lost_wakeup (cfg : WatchConfig) (acts : List WatchAct) (s : Watch) (call : Call)
    (hrun : (watcher cfg).run (watcher cfg).init acts = some s)
    (hmeets : (watcher cfg).Meets (ReadyAnnounced cfg) (watcher cfg).init acts)
    (hcall : call ∈ s.calls) (hblocked : call.pc = .receive)
    (hnothing : call.next = s.changes.length) (hidle : s.subscriber = .next)
    (hprocessed : s.applied = []) : ∀ pod ∈ s.store.pods, cfg.selects pod = false := by
  have hI := signalled_invariant cfg acts s hrun hmeets
  intro pod hpod
  rcases hI.signal call hcall (by simp [Call.waiting, hblocked]) with hcov | hall
  · rcases hcov with hready | hlag
    · exact absurd hready (not_undelivered hnothing.ge)
    · omega
  · cases hsel : cfg.selects pod with
    | false => rfl
    | true =>
        rcases hall pod hpod hsel with hin | heq | heq
        · rw [hprocessed] at hin
          contradiction
        · rw [hidle] at heq
          contradiction
        · rw [hidle] at heq
          contradiction

/-- A running pod, ready or not. -/
def testPod (name uid : String) (ready : Bool) : WatchedPod where
  name := name
  uid := some uid
  deletionTimestamp := none
  status := some {
    phase := some "Running"
    conditions := some [{ type := "Ready", status := if ready then "True" else "False" }] }

/-- Any pod of the namespace that is ready. -/
def anyReadyPod : WatchConfig where
  selector := .labels ""
  readiness := .ready

/-- Call `c` of `wait_for_ready_pod` finds no ready pod among `pods` and blocks. -/
def blockActs (c : Nat) (pods : List WatchedPod) : List WatchAct :=
  [.waitForReadyPod, .call c .go, .call c .go, .call c .go, .call c (.list pods), .call c .go]

/-- Pod web-0 is running and not ready, and the subscriber has looked at it. -/
def unreadyActs : List WatchAct :=
  [.applyPod (testPod "web-0" "a" false), .subscriber, .subscriber]

theorem no_lost_wakeup_unready :
    ∃ s, (watcher anyReadyPod).run (watcher anyReadyPod).init
        (unreadyActs ++ blockActs 0 [testPod "web-0" "a" false]) = some s ∧
      s.store.pods = [testPod "web-0" "a" false] ∧
      ∀ pod ∈ s.store.pods, anyReadyPod.selects pod = false := by
  have hobs : ((watcher anyReadyPod).run (watcher anyReadyPod).init
      (unreadyActs ++ blockActs 0 [testPod "web-0" "a" false])).map (fun s =>
        (s.store.pods, s.calls, s.changes, s.subscriber, s.applied)) =
      some ([testPod "web-0" "a" false], [{ pc := .receive, waits := true, next := 0 }], [],
        .next, []) := by decide +kernel
  have hmeets : (watcher anyReadyPod).Meets (ReadyAnnounced anyReadyPod)
      (watcher anyReadyPod).init (unreadyActs ++ blockActs 0 [testPod "web-0" "a" false]) :=
    meets_of_check (by decide +kernel)
  obtain ⟨s, hrun, hs⟩ := Option.map_eq_some_iff.1 hobs
  simp only [Prod.mk.injEq] at hs
  obtain ⟨hpods, hcalls, hchanges, hsub, happlied⟩ := hs
  exact ⟨s, hrun, hpods, no_lost_wakeup anyReadyPod _ s ⟨.receive, true, 0⟩ hrun hmeets
    (by rw [hcalls]; exact List.mem_singleton_self _) rfl (by rw [hchanges]; rfl) hsub happlied⟩

/-- Call 0 is blocked and pod web-0 becomes ready.  Before the subscriber looks at it,
call 1 of `ready_pod` finds it and caches it. -/
def hiddenEventActs : List WatchAct :=
  blockActs 0 [] ++ [WatchAct.applyPod (testPod "web-0" "a" true), .readyPod, .call 1 .go,
    .call 1 (.list [testPod "web-0" "a" true]), .call 1 .go, .subscriber, .subscriber]

/-- The subscriber finds the pod in the cache and announces nothing: call 0 stays
blocked next to a ready pod. -/
theorem ready_pod_hides_event :
    ¬ ∀ (cfg : WatchConfig) (acts : List WatchAct) (s : Watch) (call : Call),
      (watcher cfg).run (watcher cfg).init acts = some s → call ∈ s.calls →
      call.pc = .receive → call.next = s.changes.length → s.subscriber = .next →
      s.applied = [] → ∀ pod ∈ s.store.pods, cfg.selects pod = false := by
  intro hall
  have hobs : ((watcher anyReadyPod).run (watcher anyReadyPod).init hiddenEventActs).map
      (fun s => (s.store.pods, s.calls.head?, s.changes, s.subscriber, s.applied)) =
      some ([testPod "web-0" "a" true], some { pc := .receive, waits := true, next := 0 }, [],
        .next, []) := by decide +kernel
  obtain ⟨s, hrun, hs⟩ := Option.map_eq_some_iff.1 hobs
  simp only [Prod.mk.injEq] at hs
  obtain ⟨hpods, hcall, hchanges, hsub, happlied⟩ := hs
  have hnone := hall anyReadyPod hiddenEventActs s _ hrun (List.mem_of_mem_head? hcall) rfl
    (by rw [hchanges]; rfl) hsub happlied (testPod "web-0" "a" true) (by simp [hpods])
  exact absurd hnone (by decide)

end KubePortForward.Forwarder
