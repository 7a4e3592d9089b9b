import KubePortForward.Verified.Simulation
import KubePortForward.Forwarder.ReadyWaiters

/-!
# The choice of the ready pod

The store, the cached ready pod and the broadcasts of a watcher, with every operation taken
whole: an `Apply` updates the store and runs `update_latest`, a `Delete` removes the pod of
that name from the store and runs `handle_deleted_pod`, and `ready_pod` scans the store in
whatever order it lists its pods.

Three operations write the cache.  `update_latest` replaces it only if it is empty or its
pod has come back under another UID, `handle_deleted_pod` clears it only for the cached
identity, and `ready_pod` keeps it as long as the cached pod is selected.  So the choice
stays the same for as long as the chosen pod is on offer.

## Main results

* `ready_choice_sound_complete_sticky` — what `ready_pod` answers in any state, that it
  answers the same until the pod is no longer on offer, and when `Died` is broadcast.
* `choosing_watched` — every run of whole operations is a run of the watcher's tasks.
-/

namespace KubePortForward.Forwarder

open KubePortForward.Verified.Transition

/-! ## Whole operations -/

/-- What the operations on the ready pod share. -/
structure ReadyChoice where
  store : PodStore
  latestReady : Option ReadyPod
  changes : List PodChange

inductive ChoiceAct where
  | apply (pod : WatchedPod)
  | delete (pod : ReadyPod)
  | readyPod (listing : List WatchedPod)
  deriving DecidableEq, Repr

namespace ReadyChoice

/-- `update_latest`. -/
def updateLatest (cfg : WatchConfig) (pod : WatchedPod) (s : ReadyChoice) : ReadyChoice :=
  if cfg.selects pod && latestChanged s.latestReady pod then
    { s with
      latestReady := some pod.identity
      changes := s.changes ++ [.ready pod.name] }
  else s

/-- `handle_deleted_pod`. -/
def handleDeletedPod (pod : ReadyPod) (s : ReadyChoice) : ReadyChoice :=
  if s.latestReady = some pod then
    { s with
      latestReady := none
      changes := s.changes ++ [.died pod.name] }
  else s

/-- `ready_pod`, for a store that lists its pods as `listing`. -/
def readyPod (cfg : WatchConfig) (listing : List WatchedPod) (s : ReadyChoice) :
    Option ReadyPod × ReadyChoice :=
  match scanPods cfg s.latestReady listing none with
  | .inl ready => (some ready, s)
  | .inr found => (found, { s with latestReady := found })

/-- A pod of this identity is in the store and is selected. -/
def Offers (cfg : WatchConfig) (p : ReadyPod) (s : ReadyChoice) : Prop :=
  ∃ pod ∈ s.store.pods, cfg.selects pod = true ∧ pod.identity = p

instance (cfg : WatchConfig) (p : ReadyPod) (s : ReadyChoice) : Decidable (s.Offers cfg p) := by
  unfold Offers
  infer_instance

end ReadyChoice

def choiceStep (cfg : WatchConfig) (s : ReadyChoice) : ChoiceAct → Option ReadyChoice
  | .apply pod => some ({ s with store := s.store.apply pod }.updateLatest cfg pod)
  | .delete pod => some ({ s with store := s.store.delete pod.name }.handleDeletedPod pod)
  | .readyPod listing =>
      if listing.isPerm s.store.pods then some (s.readyPod cfg listing).2 else none

/-- The choices of a watcher with settings `cfg`. -/
def choosing (cfg : WatchConfig) : System ReadyChoice ChoiceAct where
  init := { store := .empty, latestReady := none, changes := [] }
  step := choiceStep cfg

/-! ## The scan -/

section

variable {cfg : WatchConfig} {cached first : Option ReadyPod} {pods : List WatchedPod}
  {p : ReadyPod}

/-- A scan that stops has met the cached pod. -/
theorem scanPods_inl (h : scanPods cfg cached pods first = .inl p) :
    cached = some p ∧ ∃ pod ∈ pods, cfg.selects pod = true ∧ pod.identity = p := by
  induction pods generalizing first with
  | nil => simp [scanPods] at h
  | cons pod pods ih =>
      rw [scanPods] at h
      split at h
      · next hsel =>
          split at h
          · next hcached =>
              obtain rfl := Sum.inl.inj h
              exact ⟨hcached, pod, by simp, hsel, rfl⟩
          · obtain ⟨hcached, other, hother, hok⟩ := ih h
            exact ⟨hcached, other, List.mem_cons_of_mem _ hother, hok⟩
      · obtain ⟨hcached, other, hother, hok⟩ := ih h
        exact ⟨hcached, other, List.mem_cons_of_mem _ hother, hok⟩

/-- A scan that goes through falls back on a pod that it met. -/
theorem scanPods_inr (h : scanPods cfg cached pods first = .inr (some p)) :
    first = some p ∨ ∃ pod ∈ pods, cfg.selects pod = true ∧ pod.identity = p := by
  induction pods generalizing first with
  | nil => exact .inl (Sum.inr.inj h)
  | cons pod pods ih =>
      rw [scanPods] at h
      split at h
      · next hsel =>
          split at h
          · contradiction
          · rcases ih h with hfirst | ⟨other, hother, hok⟩
            · cases first with
              | none =>
                  rw [Option.none_or] at hfirst
                  exact .inr ⟨pod, by simp, hsel, Option.some.inj hfirst⟩
              | some old => exact .inl hfirst
            · exact .inr ⟨other, List.mem_cons_of_mem _ hother, hok⟩
      · rcases ih h with hfirst | ⟨other, hother, hok⟩
        · exact .inl hfirst
        · exact .inr ⟨other, List.mem_cons_of_mem _ hother, hok⟩

/-- The cached pod is met wherever it stands in the listing. -/
theorem scanPods_cached (h : ∃ pod ∈ pods, cfg.selects pod = true ∧ pod.identity = p) :
    scanPods cfg (some p) pods first = .inl p := by
  induction pods generalizing first with
  | nil => simp at h
  | cons pod pods ih =>
      rw [scanPods]
      by_cases hsel : cfg.selects pod = true
      · rw [if_pos hsel]
        by_cases hid : some p = some pod.identity
        · rw [if_pos hid, Option.some.inj hid]
        · rw [if_neg hid]
          apply ih
          obtain ⟨other, hother, hok⟩ := h
          rcases List.mem_cons.1 hother with rfl | hin
          · exact absurd (congrArg some hok.2.symm) hid
          · exact ⟨other, hin, hok⟩
      · rw [if_neg hsel]
        apply ih
        obtain ⟨other, hother, hok⟩ := h
        rcases List.mem_cons.1 hother with rfl | hin
        · exact absurd hok.1 hsel
        · exact ⟨other, hin, hok⟩

end

/-! ## One operation -/

section

variable {cfg : WatchConfig} {s s' : ReadyChoice} {p : ReadyPod} {listing : List WatchedPod}

/-- A listing of the store shows what the store offers. -/
theorem offers_iff_listed (h : listing.isPerm s.store.pods = true) :
    s.Offers cfg p ↔ ∃ pod ∈ listing, cfg.selects pod = true ∧ pod.identity = p := by
  have hperm := List.isPerm_iff.1 h
  constructor
  · rintro ⟨pod, hpod, hok⟩
    exact ⟨pod, hperm.mem_iff.2 hpod, hok⟩
  · rintro ⟨pod, hpod, hok⟩
    exact ⟨pod, hperm.mem_iff.1 hpod, hok⟩

/-- A pod that is returned is on offer, and cached from then on. -/
theorem readyPod_some (h : listing.isPerm s.store.pods = true)
    (hr : (s.readyPod cfg listing).1 = some p) :
    s.Offers cfg p ∧ (s.readyPod cfg listing).2.latestReady = some p := by
  rw [offers_iff_listed h]
  unfold ReadyChoice.readyPod at hr ⊢
  cases hscan : scanPods cfg s.latestReady listing none with
  | inl ready =>
      rw [hscan] at hr
      obtain rfl := Option.some.inj hr
      obtain ⟨hcached, hlisted⟩ := scanPods_inl hscan
      exact ⟨hlisted, hcached⟩
  | inr found =>
      rw [hscan] at hr
      obtain rfl : found = some p := hr
      rcases scanPods_inr hscan with hnone | hlisted
      · contradiction
      · exact ⟨hlisted, rfl⟩

theorem readyPod_none (h : listing.isPerm s.store.pods = true)
    (hr : (s.readyPod cfg listing).1 = none) : ∀ pod ∈ s.store.pods, cfg.selects pod = false := by
  unfold ReadyChoice.readyPod at hr
  cases hscan : scanPods cfg s.latestReady listing none with
  | inl ready =>
      rw [hscan] at hr
      contradiction
  | inr found =>
      rw [hscan] at hr
      obtain rfl : found = none := hr
      intro pod hpod
      exact (scanPods_nothing hscan).2 pod ((List.isPerm_iff.1 h).mem_iff.2 hpod)

/-- A cached pod that is on offer is returned, and nothing is written. -/
theorem readyPod_cached (h : listing.isPerm s.store.pods = true)
    (hcached : s.latestReady = some p) (hoffers : s.Offers cfg p) :
    s.readyPod cfg listing = (some p, s) := by
  unfold ReadyChoice.readyPod
  rw [hcached, scanPods_cached ((offers_iff_listed h).1 hoffers)]

/-- An operation after which the cached pod is still on offer leaves it cached. -/
theorem choiceStep_keeps {a : ChoiceAct} (hs : choiceStep cfg s a = some s')
    (hcached : s.latestReady = some p) (hbefore : s.Offers cfg p) (hafter : s'.Offers cfg p) :
    s'.latestReady = some p := by
  cases a with
  | apply pod =>
      obtain rfl := Option.some.inj hs
      unfold ReadyChoice.updateLatest at hafter ⊢
      split
      · next hchanged =>
          rw [if_pos hchanged] at hafter
          -- The pod has the name of the cached one, so the store holds no other of that name.
          simp only [hcached, latestChanged, Bool.and_eq_true] at hchanged
          obtain ⟨-, hchanged⟩ := hchanged
          by_cases hname : p.name = pod.name
          · obtain ⟨other, hother, -, hid⟩ := hafter
            rcases PodStore.mem_apply.1 hother with ⟨-, hne⟩ | rfl
            · exact absurd (by rw [← hid] at hname; exact hname) hne
            · exact congrArg some hid
          · rw [if_neg hname] at hchanged
            contradiction
      · exact hcached
  | delete pod =>
      obtain rfl := Option.some.inj hs
      unfold ReadyChoice.handleDeletedPod at hafter ⊢
      split
      · next hdeleted =>
          rw [if_pos hdeleted] at hafter
          have hid : p = pod := Option.some.inj (hcached.symm.trans hdeleted)
          obtain ⟨other, hother, -, hother'⟩ := hafter
          refine absurd ?_ (PodStore.mem_delete.1 hother).2
          rw [← hid, ← hother']
          rfl
      · exact hcached
  | readyPod listing =>
      simp only [choiceStep] at hs
      split at hs
      · next hperm =>
          obtain rfl := Option.some.inj hs
          rw [readyPod_cached hperm hcached hbefore]
          exact hcached
      · contradiction

/-- What an operation broadcasts. -/
theorem choiceStep_changes {a : ChoiceAct} (hs : choiceStep cfg s a = some s') :
    ∃ sent, s'.changes = s.changes ++ sent ∧
      ∀ name, .died name ∈ sent ↔ ∃ pod, a = .delete pod ∧ s.latestReady = some pod ∧
        name = pod.name := by
  cases a with
  | apply pod =>
      obtain rfl := Option.some.inj hs
      unfold ReadyChoice.updateLatest
      split
      · exact ⟨[.ready pod.name], rfl, by simp⟩
      · exact ⟨[], (List.append_nil _).symm, by simp⟩
  | delete pod =>
      obtain rfl := Option.some.inj hs
      unfold ReadyChoice.handleDeletedPod
      split
      · next hdeleted =>
          refine ⟨[.died pod.name], rfl, fun name => ?_⟩
          rw [List.mem_singleton]
          constructor
          · intro hname
            exact ⟨pod, rfl, hdeleted, PodChange.died.inj hname⟩
          · rintro ⟨other, hother, -, rfl⟩
            rw [ChoiceAct.delete.inj hother]
      · next hother =>
          refine ⟨[], (List.append_nil _).symm, fun name => ?_⟩
          refine iff_of_false (by simp) ?_
          rintro ⟨same, hsame, hcached, -⟩
          rw [← ChoiceAct.delete.inj hsame] at hcached
          exact hother hcached
  | readyPod listing =>
      simp only [choiceStep] at hs
      split at hs
      · obtain rfl := Option.some.inj hs
        refine ⟨[], ?_, by simp⟩
        unfold ReadyChoice.readyPod
        split <;> exact (List.append_nil _).symm
      · contradiction

end

/-! ## Whole runs -/

/-- As long as the cached pod is on offer before and after every operation, it stays
cached. -/
theorem choosing_keeps {cfg : WatchConfig} {p : ReadyPod} (acts : List ChoiceAct) :
    ∀ {s t : ReadyChoice}, (choosing cfg).run s acts = some t →
      (choosing cfg).Meets (fun u _ => u.Offers cfg p) s acts → t.Offers cfg p →
      s.latestReady = some p → t.latestReady = some p := by
  induction acts with
  | nil =>
      intro s t hrun _ _ hcached
      cases hrun
      exact hcached
  | cons a acts ih =>
      intro s t hrun hmeets hlast hcached
      obtain ⟨u, hstep, hrest⟩ := run_cons_some hrun
      have hnext : u.Offers cfg p := by
        cases acts with
        | nil =>
            cases hrest
            exact hlast
        | cons b acts => exact (hmeets.2 u hstep).1
      exact ih hrest (hmeets.2 u hstep) hlast
        (choiceStep_keeps hstep hcached hmeets.1 hnext)

/-- In any state, so in every state of a run: `ready_pod` returns a pod that is on offer,
and nothing only if none is; a pod that it has returned is returned by every later call for
as long as it has been on offer without a break; and an operation broadcasts `Died` exactly
if it deletes the cached identity. -/
theorem ready_choice_sound_complete_sticky (cfg : WatchConfig) (s : ReadyChoice) :
    (∀ listing, listing.isPerm s.store.pods = true →
      (∀ p, (s.readyPod cfg listing).1 = some p → s.Offers cfg p) ∧
      ((s.readyPod cfg listing).1 = none → ∀ pod ∈ s.store.pods, cfg.selects pod = false) ∧
      ∀ p, (s.readyPod cfg listing).1 = some p →
        ∀ between t, (choosing cfg).run (s.readyPod cfg listing).2 between = some t →
          (choosing cfg).Meets (fun u _ => u.Offers cfg p) (s.readyPod cfg listing).2 between →
          t.Offers cfg p →
          ∀ listing', listing'.isPerm t.store.pods = true →
            (t.readyPod cfg listing').1 = some p) ∧
    ∀ a s', (choosing cfg).step s a = some s' → ∃ sent, s'.changes = s.changes ++ sent ∧
      ∀ name, .died name ∈ sent ↔ ∃ pod, a = .delete pod ∧ s.latestReady = some pod ∧
        name = pod.name := by
  refine ⟨fun listing hperm => ⟨fun p hr => (readyPod_some hperm hr).1, readyPod_none hperm,
    fun p hr between t hrun hmeets hlast listing' hperm' => ?_⟩,
    fun a s' hs => choiceStep_changes hs⟩
  have hcached := choosing_keeps between hrun hmeets hlast (readyPod_some hperm hr).2
  rw [readyPod_cached hperm' hcached hlast]

/-- A ready pod. -/
def readyWebPod (name uid : String) : WatchedPod where
  name := name
  uid := some uid
  deletionTimestamp := none
  status := some { phase := some "Running", conditions := some [⟨"Ready", "True"⟩] }

/-- `web-0` was chosen; then `web-1` becomes ready, a stale `Delete` of its predecessor
arrives, and `web-1` is back.  `web-0` is still the choice, although it is listed last. -/
theorem ready_choice_second_pod :
    ∃ s t : ReadyChoice,
      (choosing ⟨.labels "app=web", .ready⟩).run (choosing ⟨.labels "app=web", .ready⟩).init
        [.apply (readyWebPod "web-0" "a")] = some s ∧
      (s.readyPod ⟨.labels "app=web", .ready⟩ [readyWebPod "web-0" "a"]).1 =
        some ⟨"web-0", some "a"⟩ ∧
      (choosing ⟨.labels "app=web", .ready⟩).run
        (s.readyPod ⟨.labels "app=web", .ready⟩ [readyWebPod "web-0" "a"]).2
        [.apply (readyWebPod "web-1" "b"), .delete ⟨"web-1", some "z"⟩,
          .apply (readyWebPod "web-1" "b")] = some t ∧
      (t.readyPod ⟨.labels "app=web", .ready⟩
        [readyWebPod "web-1" "b", readyWebPod "web-0" "a"]).1 = some ⟨"web-0", some "a"⟩ := by
  refine ⟨_, _, rfl, by decide +kernel, rfl, ?_⟩
  refine ((ready_choice_sound_complete_sticky _ _).1 [readyWebPod "web-0" "a"]
    (by decide +kernel)).2.2 _ (by decide +kernel) [.apply (readyWebPod "web-1" "b"),
      .delete ⟨"web-1", some "z"⟩, .apply (readyWebPod "web-1" "b")] _ rfl ?_ ?_ _
    (by decide +kernel)
  · exact meets_of_check (by decide +kernel)
  · decide +kernel

/-! ## The tasks of the watcher -/

/-- The part of a watcher that the choice is made from. -/
def Watch.choice (w : Watch) : ReadyChoice where
  store := w.store
  latestReady := w.latestReady
  changes := w.changes

/-- Neither task is in the middle of an event. -/
structure Watch.Quiet (w : Watch) : Prop where
  reflector : w.reflector = .next
  subscriber : w.subscriber = .next
  applied : w.applied = []

section

variable {cfg : WatchConfig} {w : Watch}

theorem applyPod_watched (hquiet : w.Quiet) (pod : WatchedPod) :
    ∃ acts w', (watcher cfg).run w acts = some w' ∧ w'.Quiet ∧
      w'.choice = { w.choice with store := w.store.apply pod }.updateLatest cfg pod := by
  have hget : (w.store.apply pod).get pod.name = some pod :=
    PodStore.get_eq_some.2 ⟨PodStore.mem_apply.2 (.inr rfl), rfl⟩
  let w₁ : Watch := { w with store := w.store.apply pod, applied := [pod.name] }
  let w₂ : Watch := { w₁ with applied := [], subscriber := .loadLatest pod }
  have h₁ : (watcher cfg).step w (.applyPod pod) = some w₁ := by
    show watchStep cfg w (.applyPod pod) = _
    rw [watchStep, if_pos hquiet.reflector, hquiet.applied]
    rfl
  have h₂ : (watcher cfg).step w₁ .subscriber = some w₂ := by
    show subscriberStep cfg w₁ = _
    simp only [subscriberStep, w₁, hquiet.subscriber, hget]
    rfl
  by_cases hchanged : (cfg.selects pod && latestChanged w.latestReady pod) = true
  · let w₃ : Watch := { w₂ with subscriber := .storeLatest pod }
    have h₃ : (watcher cfg).step w₂ .subscriber = some w₃ := if_pos hchanged
    refine ⟨[.applyPod pod, .subscriber, .subscriber, .subscriber, .subscriber], _,
      (run_cons h₁).trans ((run_cons h₂).trans ((run_cons h₃).trans rfl)),
      ⟨hquiet.reflector, rfl, rfl⟩, ?_⟩
    exact (if_pos hchanged).symm
  · let w₃ : Watch := { w₂ with subscriber := .next }
    have h₃ : (watcher cfg).step w₂ .subscriber = some w₃ := if_neg hchanged
    refine ⟨[.applyPod pod, .subscriber, .subscriber], w₃,
      (run_cons h₁).trans ((run_cons h₂).trans ((run_cons h₃).trans rfl)),
      ⟨hquiet.reflector, rfl, rfl⟩, ?_⟩
    exact (if_neg hchanged).symm

theorem deletePod_watched (hquiet : w.Quiet) (pod : ReadyPod) :
    ∃ acts w', (watcher cfg).run w acts = some w' ∧ w'.Quiet ∧
      w'.choice = { w.choice with store := w.store.delete pod.name }.handleDeletedPod pod := by
  let w₁ : Watch := { w with store := w.store.delete pod.name, reflector := .handleDeleted pod }
  have h₁ : (watcher cfg).step w (.deletePod pod) = some w₁ := if_pos hquiet.reflector
  by_cases hcached : w.latestReady = some pod
  · let w₂ : Watch := { w₁ with latestReady := none, reflector := .announceDied pod.name }
    have h₂ : (watcher cfg).step w₁ .reflector = some w₂ := if_pos hcached
    refine ⟨[.deletePod pod, .reflector, .reflector], _,
      (run_cons h₁).trans ((run_cons h₂).trans rfl),
      ⟨rfl, hquiet.subscriber, hquiet.applied⟩, ?_⟩
    exact (if_pos hcached).symm
  · let w₂ : Watch := { w₁ with reflector := .next }
    have h₂ : (watcher cfg).step w₁ .reflector = some w₂ := if_neg hcached
    refine ⟨[.deletePod pod, .reflector], w₂, (run_cons h₁).trans ((run_cons h₂).trans rfl),
      ⟨rfl, hquiet.subscriber, hquiet.applied⟩, ?_⟩
    exact (if_neg hcached).symm

/-- The watcher with one more call. -/
def Watch.withCall (w : Watch) (call : Call) : Watch := { w with calls := w.calls ++ [call] }

theorem withCall_step (call : Call) (choice : CallChoice) :
    (watcher cfg).step (w.withCall call) (.call w.calls.length choice) =
      callStep cfg (w.withCall call) w.calls.length call choice := by
  have hcall : (w.withCall call).calls[w.calls.length]? = some call := by
    simp [Watch.withCall]
  show watchStep cfg (w.withCall call) (.call w.calls.length choice) = _
  simp only [watchStep, hcall]

theorem withCall_setCall (call call' : Call) :
    (w.withCall call).setCall w.calls.length call' = w.withCall call' := by
  simp [Watch.withCall, Watch.setCall]

/-- A call of `ready_pod` that is not interrupted. -/
theorem readyPod_watched (hquiet : w.Quiet) {listing : List WatchedPod}
    (hperm : listing.isPerm w.store.pods = true) :
    ∃ acts w', (watcher cfg).run w acts = some w' ∧ w'.Quiet ∧
      w'.choice = (w.choice.readyPod cfg listing).2 ∧
      w'.calls = w.calls ++
        [{ pc := .returned (w.choice.readyPod cfg listing).1, waits := false }] := by
  let scanning : Call := { pc := .scan w.latestReady, waits := false }
  have hbegin : (watcher cfg).step w .readyPod = some (w.withCall .readyPod) := rfl
  have hload : (watcher cfg).step (w.withCall .readyPod) (.call w.calls.length .go) =
      some (w.withCall scanning) :=
    (withCall_step _ _).trans (congrArg some (withCall_setCall _ scanning))
  have hlist : ∀ {r : ReadyPod ⊕ Option ReadyPod} {call : Call},
      scanPods cfg w.latestReady listing none = r →
      call = { scanning with pc := match r with
        | .inl ready => .returned (some ready)
        | .inr found => .write found } →
      (watcher cfg).step (w.withCall scanning) (.call w.calls.length (.list listing)) =
        some (w.withCall call) := by
    rintro r call hr rfl
    have hperm' : listing.isPerm (w.withCall scanning).store.pods = true := hperm
    rw [withCall_step]
    cases r with
    | inl ready => simp only [callStep, scanning, hperm', hr, if_true, withCall_setCall]
    | inr found => simp only [callStep, scanning, hperm', hr, if_true, withCall_setCall]
  cases hscan : scanPods cfg w.latestReady listing none with
  | inl ready =>
      have hready : w.choice.readyPod cfg listing = (some ready, w.choice) := by
        unfold ReadyChoice.readyPod
        rw [show scanPods cfg w.choice.latestReady listing none = _ from hscan]
      rw [hready]
      exact ⟨[.readyPod, .call w.calls.length .go, .call w.calls.length (.list listing)], _,
        (run_cons hbegin).trans ((run_cons hload).trans
          ((run_cons (hlist hscan rfl)).trans rfl)),
        ⟨hquiet.reflector, hquiet.subscriber, hquiet.applied⟩, rfl, rfl⟩
  | inr found =>
      have hready : w.choice.readyPod cfg listing =
          (found, { w.choice with latestReady := found }) := by
        unfold ReadyChoice.readyPod
        rw [show scanPods cfg w.choice.latestReady listing none = _ from hscan]
      rw [hready]
      let answered : Call := { pc := .returned found, waits := false }
      have hwrite : (watcher cfg).step (w.withCall { pc := .write found, waits := false })
          (.call w.calls.length .go) =
          some ({ w with latestReady := found }.withCall answered) := by
        rw [withCall_step]
        cases found <;>
          exact congrArg some
            (withCall_setCall (w := { w with latestReady := _ }) { pc := .write _, waits := false }
              answered)
      exact ⟨[.readyPod, .call w.calls.length .go, .call w.calls.length (.list listing),
          .call w.calls.length .go], _,
        (run_cons hbegin).trans ((run_cons hload).trans ((run_cons (hlist hscan rfl)).trans
          ((run_cons hwrite).trans rfl))),
        ⟨hquiet.reflector, hquiet.subscriber, hquiet.applied⟩, rfl, rfl⟩

/-- A whole operation is what the tasks and the caller do when nothing comes in between. -/
theorem choiceStep_watched {a : ChoiceAct} {s' : ReadyChoice} (hquiet : w.Quiet)
    (hs : choiceStep cfg w.choice a = some s') :
    ∃ acts w', (watcher cfg).run w acts = some w' ∧ w'.Quiet ∧ w'.choice = s' := by
  cases a with
  | apply pod =>
      obtain rfl := Option.some.inj hs
      exact applyPod_watched hquiet pod
  | delete pod =>
      obtain rfl := Option.some.inj hs
      exact deletePod_watched hquiet pod
  | readyPod listing =>
      simp only [choiceStep] at hs
      split at hs
      · next hperm =>
          obtain rfl := Option.some.inj hs
          obtain ⟨acts, w', hrun, hquiet', hchoice, -⟩ := readyPod_watched hquiet hperm
          exact ⟨acts, w', hrun, hquiet', hchoice⟩
      · contradiction

end

/-- Every run of whole operations is a run of the watcher. -/
theorem choosing_watched {cfg : WatchConfig} (acts : List ChoiceAct) :
    ∀ {w : Watch} {t : ReadyChoice}, w.Quiet → (choosing cfg).run w.choice acts = some t →
      ∃ acts' w', (watcher cfg).run w acts' = some w' ∧ w'.Quiet ∧ w'.choice = t := by
  induction acts with
  | nil =>
      intro w t hquiet hrun
      cases hrun
      exact ⟨[], w, rfl, hquiet, rfl⟩
  | cons a acts ih =>
      intro w t hquiet hrun
      obtain ⟨u, hstep, hrest⟩ := run_cons_some hrun
      obtain ⟨first, w₁, hfirst, hquiet₁, rfl⟩ := choiceStep_watched hquiet hstep
      obtain ⟨rest, w₂, hlater, hquiet₂, hchoice⟩ := ih hquiet₁ hrest
      exact ⟨first ++ rest, w₂, run_append_some hfirst hlater, hquiet₂, hchoice⟩

end KubePortForward.Forwarder
