import KubePortForward.Forwarder.PoolInvariant

/-!
# The bound on the pool

`reserve_new_slot` counts the entries and the sessions being opened, so that
the calls alone keep within `max_sessions`.  A prefetch holds no slot and is
checked against the entries alone, so it can take a place that a call has
reserved.

## Main results

* `entries_bounded` — in a run in which no prefetch takes a reserved place, the
  pool never has more than `max_sessions` entries.
* `prefetch_overfills_pool` — a run in which one does.
-/

namespace KubePortForward.Forwarder

open KubePortForward.Verified.Transition

/-! ## Counting slots -/

/-- The call holds a slot for a session that is not in the pool yet. -/
def Task.owes (k : Task) : Bool := k.slot && !k.pushed

/-- Replacing one task changes a count by what the two differ. -/
theorem countP_setTask {p : Task → Bool} {tasks : List Task} {t : TaskId} {k y : Task}
    (hk : tasks[t]? = some k) :
    (tasks.set t y).countP p + (p k).toNat = tasks.countP p + (p y).toNat := by
  obtain ⟨hlt, hget⟩ := List.getElem?_eq_some_iff.1 hk
  have hset := List.countP_set (p := p) (a := y) hlt
  rw [hget] at hset
  have hpos : p k = true → 0 < tasks.countP p := by
    intro hp
    refine List.countP_pos_iff.2 ⟨k, ?_, hp⟩
    rw [← hget]
    exact List.getElem_mem hlt
  cases hp : p k <;> cases hp' : p y <;> simp_all

/-- Slots are held on the way from the reservation to the return. -/
structure SlotInv (k : Task) : Prop where
  holds : k.slot = true → k.pc.mayHold = true
  pushed : k.pushed = true → k.slot = true
  reserved : k.pc.reserved = true → k.slot = true ∧ k.pushed = false

theorem Task.Starts.slotInv {k : Task} (h : k.Starts) : SlotInv k := by
  refine ⟨fun hs => ?_, fun hp => ?_, fun hr => ?_⟩
  · rw [h.slot] at hs
    contradiction
  · rw [h.pushed] at hp
    contradiction
  · rw [h.unreserved] at hr
    contradiction

/-- What a section knows about the entries before its next access. -/
def Section.Fits (cfg : ForwarderConfig) (s : State) : Section → Prop
  | .reserveSlot => s.pool.entries.length + s.pool.openingCount < cfg.maxSessions
  | .retiring kept rest _ => kept.length + rest.length ≤ s.pool.entries.length
  | .pruning _ kept rest _ => kept.length + rest.length ≤ s.pool.entries.length
  | _ => True

structure Bounded (cfg : ForwarderConfig) (s : State) : Prop where
  slots : ∀ (t : TaskId) (k : Task), s.tasks[t]? = some k → SlotInv k
  count : s.pool.openingCount = s.tasks.countP (·.slot)
  room : s.pool.entries.length + s.tasks.countP Task.owes ≤ cfg.maxSessions
  fits : ∀ (t : TaskId) (k : Task) sec, s.tasks[t]? = some k → k.pc = .locked sec →
    sec.Fits cfg s

theorem bounded_init (cfg : ForwarderConfig) : Bounded cfg State.init := by
  constructor <;> simp [State.init, SessionPool.new]

/-- What holds of a section holds with fewer openings. -/
theorem Section.Fits.mono {cfg : ForwarderConfig} {s u : State} {sec : Section}
    (h : sec.Fits cfg s) (hentries : u.pool.entries.length = s.pool.entries.length)
    (hcount : u.pool.openingCount ≤ s.pool.openingCount) : sec.Fits cfg u := by
  cases sec with
  | reserveSlot =>
      simp only [Section.Fits] at h ⊢
      omega
  | retiring kept rest removed => simpa only [Section.Fits, hentries] using h
  | pruning left kept rest removed => simpa only [Section.Fits, hentries] using h
  | _ => trivial

theorem owes_le_slot (tasks : List Task) :
    tasks.countP Task.owes ≤ tasks.countP (·.slot) := by
  refine List.countP_mono_left fun k _ hk => ?_
  simp only [Task.owes, Bool.and_eq_true] at hk
  exact hk.1

/-! ## Tasks outside the lock -/

theorem TaskMove.slotInv {s u : State} {k k' : Task} (h : TaskMove s k u k')
    (hI : SlotInv k) : SlotInv k' := by
  cases h with
  | movesOn permits k' h =>
      refine ⟨fun hs => ?_, fun hp => ?_, fun hr => ?_⟩
      · rw [h.slot] at hs
        exact h.mayHold hs (hI.holds hs)
      · rw [h.slot]
        exact hI.pushed (h.pushed ▸ hp)
      · rw [h.slot, h.pushed]
        exact hI.reserved (h.reserved hr)
  | releaseSlot out h hslot =>
      refine ⟨fun hs => by contradiction, fun hp => by contradiction, fun hr => ?_⟩
      simp [h] at hr
  | opened inner h => exact ⟨fun _ => rfl, hI.pushed, fun _ => hI.reserved (by rw [h]; rfl)⟩
  | ensured x h hslot =>
      refine ⟨fun hs => ?_, hI.pushed, fun hr => by contradiction⟩
      rw [show ({ k with pc := .connect x } : Task).slot = k.slot from rfl, hslot] at hs
      contradiction
  | connect x ns pc' h hpc =>
      refine ⟨fun hs => ?_, hI.pushed, fun hr => ?_⟩
      · simpa [h] using hI.holds hs
      · rcases hpc with rfl | ⟨e, rfl⟩ | ⟨stream, pod, rfl⟩ <;> contradiction
  | lookup ready h =>
      refine ⟨fun hs => ?_, hI.pushed, fun hr => by contradiction⟩
      simpa [h] using hI.holds hs
  | load look h =>
      refine ⟨fun hs => ?_, hI.pushed, fun hr => by contradiction⟩
      simpa [h] using hI.holds hs
  | choose look x rest h hserves =>
      exact ⟨fun hs => rfl, hI.pushed, fun hr => by contradiction⟩
  | cancel x todo after h =>
      refine ⟨fun hs => ?_, hI.pushed, fun hr => by contradiction⟩
      have hold := hI.holds hs
      rw [h] at hold
      cases after <;> simp_all
  | prefetched inner h =>
      refine ⟨fun hs => ?_, hI.pushed, fun hr => by contradiction⟩
      simpa [h] using hI.holds hs

/-- A task outside the lock keeps its slot or gives it back. -/
theorem TaskMove.slots {s u : State} {k k' : Task} (h : TaskMove s k u k') :
    (k'.slot = k.slot ∧ k'.pushed = k.pushed ∧
      u.pool.openingCount = s.pool.openingCount) ∨
    (k.slot = true ∧ k'.slot = false ∧
      u.pool.openingCount = s.pool.openingCount - 1) := by
  cases h with
  | movesOn permits k' h => exact .inl ⟨h.slot, h.pushed, rfl⟩
  | releaseSlot out h hslot => exact .inr ⟨hslot, rfl, rfl⟩
  | _ => exact .inl ⟨rfl, rfl, rfl⟩

theorem Bounded.move {cfg : ForwarderConfig} {s u : State} {t : TaskId} {k k' : Task}
    (hI : Bounded cfg s) (hk : s.tasks[t]? = some k) (h : TaskMove s k u k') :
    Bounded cfg (u.setTask t k') := by
  have hu := h.extends
  have hslotCount := countP_setTask (p := (·.slot)) (y := k') hk
  have howesCount := countP_setTask (p := Task.owes) (y := k') hk
  have hcount := hI.count
  have hroom := hI.room
  have hinv := h.slotInv (hI.slots t k hk)
  have hlen : u.pool.entries.length = s.pool.entries.length := by rw [hu.entries]
  have hle : u.pool.openingCount ≤ s.pool.openingCount := by
    rcases h.slots with ⟨-, -, hn⟩ | ⟨-, -, hn⟩
    · exact hn.le
    · rw [hn]
      exact Nat.sub_le _ _
  refine ⟨?_, ?_, ?_, ?_⟩
  · intro i y hy
    rcases setTask_tasks hy with ⟨-, rfl⟩ | ⟨-, hy⟩
    · exact hinv
    · rw [hu.tasks] at hy
      exact hI.slots i y hy
  · show u.pool.openingCount = (u.tasks.set t k').countP (·.slot)
    rw [hu.tasks]
    rcases h.slots with ⟨hs, -, hn⟩ | ⟨hs, hs', hn⟩
    · simp only [hs] at hslotCount
      omega
    · simp only [hs, hs', Bool.toNat_true, Bool.toNat_false] at hslotCount
      omega
  · show u.pool.entries.length + (u.tasks.set t k').countP Task.owes ≤ cfg.maxSessions
    rw [hu.tasks, hlen]
    have hdrop : (Task.owes k').toNat ≤ (Task.owes k).toNat := by
      rcases h.slots with ⟨hs, hp, -⟩ | ⟨-, hs', -⟩
      · simp only [Task.owes, hs, hp, le_refl]
      · simp [Task.owes, hs']
    omega
  · intro i y sec hy hpc
    rcases setTask_tasks hy with ⟨-, rfl⟩ | ⟨-, hy⟩
    · have hout := h.unlocked.2.1
      rw [hpc] at hout
      contradiction
    · rw [hu.tasks] at hy
      exact (hI.fits i y sec hy hpc).mono hlen hle

/-! ## The locked sections -/

/-- What a step must meet: a prefetch that installs its session takes no place
that a call has reserved. -/
def PrefetchFits (cfg : ForwarderConfig) (s : State) : Act → Prop
  | .task t _ =>
      match s.tasks[t]? with
      | some k =>
          match k.pc with
          | .locked (.prefetchInstall (some _)) =>
              s.pool.target = some k.ready →
                s.pool.entries.length + s.tasks.countP Task.owes < cfg.maxSessions ∨
                  cfg.maxSessions ≤ s.pool.entries.length
          | _ => True
      | none => True
  | _ => True

instance (cfg : ForwarderConfig) (s : State) (a : Act) : Decidable (PrefetchFits cfg s a) := by
  unfold PrefetchFits
  (repeat' split) <;> infer_instance

section

variable {cfg : ForwarderConfig} {s s' : State} {t : TaskId} {k : Task} {c : Choice}

/-- Nobody but the holder is in a locked section. -/
def Alone (s : State) (t : TaskId) : Prop :=
  ∀ (i : TaskId) (y : Task), i ≠ t → s.tasks[i]? = some y → y.pc.isLocked = false

theorem PoolInv.alone (hI : PoolInv s) (hk : s.tasks[t]? = some k)
    (hin : k.pc.isLocked = true) : Alone s t := by
  intro i y hne hy
  cases hl : y.pc.isLocked with
  | false => rfl
  | true =>
      have hlock := hI.lockers i y hy hl
      rw [hI.lockers t k hk hin, Option.some.injEq] at hlock
      exact absurd hlock.symm hne

/-- A step of the holder, by what it does to the three counts. -/
theorem Bounded.locked {u : State} {k' : Task} (hI : Bounded cfg s) (halone : Alone s t)
    (hk : s.tasks[t]? = some k) (htasks : u.tasks = s.tasks) (hinv : SlotInv k')
    (hcount : u.pool.openingCount + k.slot.toNat = s.pool.openingCount + k'.slot.toNat)
    (hroom : u.pool.entries.length + s.tasks.countP Task.owes + k'.owes.toNat ≤
      cfg.maxSessions + k.owes.toNat)
    (hfits : ∀ sec, k'.pc = .locked sec → sec.Fits cfg u) :
    Bounded cfg (u.setTask t k') := by
  have hslots := countP_setTask (p := (·.slot)) (y := k') hk
  have howes := countP_setTask (p := Task.owes) (y := k') hk
  have hold := hI.count
  refine ⟨?_, ?_, ?_, ?_⟩
  · intro i y hy
    rcases setTask_tasks hy with ⟨-, rfl⟩ | ⟨-, hy⟩
    · exact hinv
    · rw [htasks] at hy
      exact hI.slots i y hy
  · show u.pool.openingCount = (u.tasks.set t k').countP (·.slot)
    rw [htasks]
    omega
  · show u.pool.entries.length + (u.tasks.set t k').countP Task.owes ≤ cfg.maxSessions
    rw [htasks]
    omega
  · intro i y sec hy hpc
    rcases setTask_tasks hy with ⟨-, rfl⟩ | ⟨hne, hy⟩
    · cases sec <;> exact hfits _ hpc
    · rw [htasks] at hy
      have hout := halone i y hne hy
      rw [hpc] at hout
      contradiction

/-- The holder adds no entry and keeps its slot. -/
theorem Bounded.keep {u : State} {k' : Task} (hI : Bounded cfg s) (halone : Alone s t)
    (hk : s.tasks[t]? = some k) (htasks : u.tasks = s.tasks)
    (hlen : u.pool.entries.length ≤ s.pool.entries.length)
    (hcount : u.pool.openingCount = s.pool.openingCount)
    (hslot : k'.slot = k.slot ∧ k'.pushed = k.pushed)
    (hinv : (k.pc.mayHold = true → k'.pc.mayHold = true) ∧ k'.pc.reserved = false)
    (hfits : ∀ sec, k'.pc = .locked sec → sec.Fits cfg u) :
    Bounded cfg (u.setTask t k') := by
  have hroom := hI.room
  have howes : k'.owes = k.owes := by rw [Task.owes, Task.owes, hslot.1, hslot.2]
  refine hI.locked halone hk htasks ⟨?_, ?_, ?_⟩ (by rw [hslot.1, hcount]) ?_ hfits
  · intro hs
    rw [hslot.1] at hs
    exact hinv.1 ((hI.slots t k hk).holds hs)
  · intro hp
    rw [hslot.1]
    exact (hI.slots t k hk).pushed (hslot.2 ▸ hp)
  · intro hr
    rw [hinv.2] at hr
    contradiction
  · rw [howes]
    omega

theorem lockedStep_bounded {sec : Section} (hP : PoolInv s) (hI : Bounded cfg s)
    (hk : s.tasks[t]? = some k) (hpc : k.pc = .locked sec)
    (hok : PrefetchFits cfg s (.task t c)) (h : lockedStep cfg t k s sec c = some s') :
    Bounded cfg s' := by
  have hin : k.pc.isLocked = true := by rw [hpc]; rfl
  have halone := hP.alone hk hin
  have hfits := hI.fits t k sec hk hpc
  have hslots := hI.slots t k hk
  have hroom := hI.room
  unfold lockedStep at h
  split at h
  · split at h <;> cases h
    · exact hI.keep (u := s.unlock) halone hk rfl le_rfl rfl ⟨rfl, rfl⟩ (by simp [hpc]) (by simp)
    · exact hI.keep halone hk rfl le_rfl rfl ⟨rfl, rfl⟩ (by simp [hpc])
        (by simp [Section.Fits])
  · cases h
    exact hI.keep halone hk rfl le_rfl rfl ⟨rfl, rfl⟩ (by simp [hpc]) (by simp [Section.Fits])
  · have hfinish : Bounded cfg (s.unlock.setTask t { k with pc := .finished }) :=
      hI.keep halone hk rfl le_rfl rfl ⟨rfl, rfl⟩ (by simp [hpc]) (by simp)
    split at h
    · cases h
      exact hfinish
    · split at h <;> cases h
      · exact hfinish
      · exact hI.keep halone hk rfl le_rfl rfl ⟨rfl, rfl⟩ (by simp [hpc])
          (by simp [Section.Fits])
  · cases h
    exact hI.keep halone hk rfl (Nat.zero_le _) rfl ⟨rfl, rfl⟩ (by simp [hpc])
      (by simp [Section.Fits])
  · cases h
    exact hI.keep (u := s.refresh.unlock) halone hk rfl le_rfl rfl ⟨rfl, rfl⟩ (by simp [hpc])
      (by simp)
  · cases h
    exact hI.keep halone hk rfl le_rfl rfl ⟨rfl, rfl⟩ (by simp [hpc]) (by simp [Section.Fits])
  · next kept e rest removed _ =>
      cases h
      simp only [Section.Fits, List.length_cons] at hfits
      refine hI.keep halone hk rfl le_rfl rfl ⟨rfl, rfl⟩ ?_ ?_
      · split <;> simp [hpc]
      · intro sec hsec
        split at hsec <;> cases hsec <;> simp only [Section.Fits, List.length_append,
          List.length_singleton] <;> omega
  · next kept removed =>
      simp only [Section.Fits, List.length_nil] at hfits
      simp only at h
      split at h <;> cases h
      · exact hI.keep (u := State.unlock _) halone hk rfl hfits rfl ⟨rfl, rfl⟩
          (by simp [hpc]) (by simp)
      · exact hI.keep halone hk rfl hfits rfl ⟨rfl, rfl⟩ (by simp [hpc])
          (by simp [Section.Fits])
  · cases h
    exact hI.keep halone hk rfl le_rfl rfl ⟨rfl, rfl⟩ (by simp [hpc]) (by simp [Section.Fits])
  · next left kept e rest removed _ =>
      cases h
      simp only [Section.Fits, List.length_cons] at hfits
      refine hI.keep halone hk rfl le_rfl rfl ⟨rfl, rfl⟩ ?_ ?_
      · split <;> simp [hpc]
      · intro sec hsec
        split at hsec <;> cases hsec <;> simp only [Section.Fits, List.length_append,
          List.length_singleton] <;> omega
  · next kept rest removed _ =>
      simp only [Section.Fits] at hfits
      simp only at h
      split at h <;> cases h
      · exact hI.keep (u := State.unlock _) halone hk rfl
          (by simpa [State.unlock, State.logRemoved, State.setPool] using hfits) rfl ⟨rfl, rfl⟩
          (by simp [hpc]) (by simp)
      · exact hI.keep halone hk rfl
          (by simpa [State.logRemoved, State.setPool] using hfits) rfl ⟨rfl, rfl⟩ (by simp [hpc])
          (by simp [Section.Fits])
  · next x =>
      obtain ⟨hslot, hpushed⟩ := hslots.reserved (by rw [hpc]; rfl)
      split at h <;> cases h
      · -- The entry takes the place that the slot was reserved for.
        refine hI.locked halone hk rfl ⟨fun _ => rfl, fun _ => hslot, fun hr => by contradiction⟩
          rfl ?_
          (by simp [Section.Fits])
        have hpush : (s.pool.push x s.now).entries.length = s.pool.entries.length + 1 := by
          simp [SessionPool.push]
        simp only [State.setPool, hpush, Task.owes, hslot, hpushed, Bool.not_true, Bool.and_false,
          Bool.not_false, Bool.and_self, Bool.toNat_false, Bool.toNat_true]
        omega
      · exact hI.keep (u := s.unlock) halone hk rfl le_rfl rfl ⟨rfl, rfl⟩ (by simp) (by simp)
  · cases h
    exact hI.keep (u := s.refresh.unlock) halone hk rfl le_rfl rfl ⟨rfl, rfl⟩ (by simp) (by simp)
  · simp only at h
    split at h <;> cases h
    · exact hI.keep (u := s.unlock) halone hk rfl le_rfl rfl ⟨rfl, rfl⟩ (by simp) (by simp)
    · next hfree =>
        refine hI.keep halone hk rfl le_rfl rfl ⟨rfl, rfl⟩ (by simp [hpc]) ?_
        intro sec hsec
        cases hsec
        exact Nat.lt_of_not_le hfree
  · cases h
    have hfree : k.slot = false := by
      cases hs : k.slot with
      | false => rfl
      | true => simpa [hpc] using hslots.holds hs
    have hunpushed : k.pushed = false := by
      cases hp : k.pushed with
      | false => rfl
      | true =>
          rw [hslots.pushed hp] at hfree
          contradiction
    have hle := owes_le_slot s.tasks
    have hcount := hI.count
    simp only [Section.Fits] at hfits
    refine hI.locked (u := State.unlock _) halone hk rfl
      ⟨fun _ => rfl, fun _ => rfl, fun _ => ⟨rfl, hunpushed⟩⟩ ?_ ?_ (by simp)
    · simp only [State.unlock, State.setPool, hfree, Bool.toNat_false, Bool.toNat_true]
    · simp only [State.unlock, State.setPool, Task.owes, hfree, hunpushed, Bool.not_false,
        Bool.and_self, Bool.false_and, Bool.toNat_false, Bool.toNat_true]
      omega
  · split at h <;> cases h
    · exact hI.keep (u := s.unlock) halone hk rfl le_rfl rfl ⟨rfl, rfl⟩ (by simp) (by simp)
    · exact hI.keep (u := State.unlock _) halone hk rfl le_rfl rfl ⟨rfl, rfl⟩ (by simp) (by simp)
  · simp only at h
    split at h
    · cases h
      exact hI.keep (u := State.unlock _) halone hk rfl le_rfl rfl ⟨rfl, rfl⟩ (by simp [hpc])
        (by simp)
    · next x =>
        split at h <;> cases h
        · next hinstalls =>
            -- The prefetch holds no slot, so the place must be free.
            simp only [PrefetchFits, hk, hpc] at hok
            have hfree := (hok hinstalls.2).resolve_right (Nat.not_le_of_lt hinstalls.1)
            refine hI.locked halone hk rfl ⟨fun hs => ?_, hslots.pushed, fun hr => by contradiction⟩
              rfl ?_ (by simp [Section.Fits])
            · simpa [hpc] using hslots.holds hs
            · have hpush : (({ s.pool with prefetchInFlight := false } : SessionPool).push x
                  s.now).entries.length = s.pool.entries.length + 1 := by
                simp [SessionPool.push]
              have howes : Task.owes { k with pc := .locked .publishPrefetched } = k.owes := rfl
              simp only [State.setPool, hpush, howes]
              omega
        · exact hI.keep (u := State.unlock _) halone hk rfl le_rfl rfl ⟨rfl, rfl⟩ (by simp [hpc])
            (by simp)
  · cases h
    exact hI.keep (u := s.refresh.unlock) halone hk rfl le_rfl rfl ⟨rfl, rfl⟩ (by simp [hpc])
      (by simp)
  · contradiction

end

/-! ## Every step -/

theorem Bounded.acquire {cfg : ForwarderConfig} {s : State} {t : TaskId} {k : Task}
    {sec : Section} (hP : PoolInv s) (hI : Bounded cfg s) (hk : s.tasks[t]? = some k)
    (hpc : k.pc = .acquire sec) (hlock : s.lock = none) :
    Bounded cfg (({ s with lock := some t } : State).setTask t { k with pc := .locked sec }) := by
  have hentry : sec.isEntry = true := by simpa [hpc] using hP.enters t k hk
  have hslots := hI.slots t k hk
  have halone : Alone s t := by
    intro i y _ hy
    cases hl : y.pc.isLocked with
    | false => rfl
    | true => exact absurd (hP.lockers i y hy hl) (by rw [hlock]; simp)
  have hinv : SlotInv { k with pc := .locked sec } := by
    refine ⟨fun hs => ?_, hslots.pushed, fun hr => hslots.reserved ?_⟩
    · have hold := hslots.holds hs
      rw [hpc] at hold
      cases sec <;> first | contradiction | rfl
    · rw [hpc]
      cases sec <;> first | contradiction | rfl
  refine hI.locked (u := { s with lock := some t }) halone hk rfl hinv rfl ?_ ?_
  · exact Nat.add_le_add_right hI.room _
  · intro sec' hsec
    cases hsec
    cases sec <;> first | contradiction | trivial

theorem Bounded.spawn {cfg : ForwarderConfig} {s : State} {k : Task} (hI : Bounded cfg s)
    (hk : k.Starts) : Bounded cfg (s.spawn k) := by
  have howes : Task.owes k = false := by rw [Task.owes, hk.slot, Bool.false_and]
  refine ⟨?_, ?_, ?_, ?_⟩
  · intro i y hy
    rcases spawn_tasks hy with hy | ⟨-, rfl⟩
    · exact hI.slots i y hy
    · exact hk.slotInv
  · simp [State.spawn, hk.slot, hI.count]
  · have hroom := hI.room
    simpa [State.spawn, howes] using hroom
  · intro i y sec hy hpc
    rcases spawn_tasks hy with hy | ⟨-, rfl⟩
    · exact (hI.fits i y sec hy hpc).mono rfl le_rfl
    · have hout := hk.plain.unlocked
      rw [hpc] at hout
      contradiction

/-- Sessions and time change on their own. -/
theorem Bounded.extend {cfg : ForwarderConfig} {s u : State} (hI : Bounded cfg s)
    (htasks : u.tasks = s.tasks) (hpool : u.pool = s.pool) : Bounded cfg u := by
  refine ⟨?_, ?_, ?_, ?_⟩
  · rw [htasks]
    exact hI.slots
  · rw [htasks, hpool]
    exact hI.count
  · rw [htasks, hpool]
    exact hI.room
  · rw [htasks]
    intro i y sec hy hpc
    exact (hI.fits i y sec hy hpc).mono (by rw [hpool]) (by rw [hpool])

theorem step_bounded {cfg : ForwarderConfig} {s s' : State} {a : Act} (hP : PoolInv s)
    (hI : Bounded cfg s) (hok : PrefetchFits cfg s a) (h : step cfg s a = some s') :
    Bounded cfg s' := by
  obtain ⟨k, hk, rfl⟩ | ⟨t, k, sec, c, rfl, hk, hpc, hl⟩ | ⟨t, k, sec, hk, hpc, hlock, rfl⟩ |
    ⟨t, k, x, hk, hpc, rfl⟩ | ⟨t, k, u, k', hk, -, hmove, rfl⟩ |
    ⟨x, inner, spares, cancel, rfl⟩ | rfl := step_cases h
  · exact hI.spawn hk
  · exact lockedStep_bounded hP hI hk hpc hok hl
  · exact hI.acquire hP hk hpc hlock
  · have hmove : TaskMove s k s { k with pc := .leave (.ok x) } := by
      refine .movesOn s.permits _ ⟨rfl, rfl, rfl, rfl, by rw [hpc]; rfl, rfl, rfl,
        by rw [hpc]; rfl, rfl, rfl, .inl rfl, fun y hy => ?_, fun _ _ => rfl, fun hr => ?_⟩
      · rw [hpc]
        exact hy
      · contradiction
    exact (hI.move hk hmove).spawn ⟨⟨rfl, rfl, rfl, rfl, rfl, rfl⟩, rfl, rfl, rfl⟩
  · exact hI.move hk hmove
  · exact hI.extend rfl rfl
  · exact hI.extend rfl rfl

theorem bounded_invariant (cfg : ForwarderConfig) :
    (forwarder cfg).Invariant (PrefetchFits cfg) (Bounded cfg) :=
  Invariant.of_step_using (Invariant.restrict (poolInv_invariant cfg) fun _ _ _ => trivial)
    (bounded_init cfg) fun _ _ _ hP hI hok h => step_bounded hP hI hok h

/-! ## The bound -/

/-- Any number of callers and every interleaving of reservations, opens,
installs, releases and prefetches: as long as no prefetch takes a reserved
place, the pool keeps within its bound. -/
theorem entries_bounded (cfg : ForwarderConfig) (acts : List Act) (s : State)
    (hrun : (forwarder cfg).run (forwarder cfg).init acts = some s)
    (hmeets : (forwarder cfg).Meets (PrefetchFits cfg) (forwarder cfg).init acts) :
    s.pool.entries.length ≤ cfg.maxSessions := by
  have hroom := (bounded_invariant cfg acts s hrun hmeets).room
  omega

/-- Two places in the pool. -/
def smallPool : ForwarderConfig := { ForwarderConfig.default with maxSessions := 2 }

/-- A session over one connection that carries 40 pairs. -/
def busySession : Mux.Session :=
  { idleSession with pool :=
      [{ shared := { Mux.Shared.init .default with activePairs := 40 }, opened := 40, rttNs := 0 }] }

/-- Call 0 opens a session, which is then busy; call 1 reuses it and starts a
prefetch, which is task 2. -/
def prefetchActs : List Act :=
  [Act.connect 8080] ++ openForActs 0 ⟨"web-0", some "a"⟩ ++
    [Act.session 0 busySession [] false, .connect 8080, .task 1 .go,
      .task 1 (.pod (some ⟨"web-0", some "a"⟩))] ++ goActs 1 7

/-- The prefetch opens its session and installs it. -/
def installPrefetchedActs : List Act :=
  [.task 2 (.opened (.ok idleSession))] ++ goActs 2 3

theorem entries_bounded_prefetch :
    ∃ s, (forwarder smallPool).run (forwarder smallPool).init
        (prefetchActs ++ installPrefetchedActs) = some s ∧
      s.pool.entries.length = 2 ∧ s.pool.entries.length ≤ smallPool.maxSessions := by
  have hlen : ((forwarder smallPool).run (forwarder smallPool).init
      (prefetchActs ++ installPrefetchedActs)).map (fun s => s.pool.entries.length) =
      some 2 := by decide +kernel
  have hmeets : (forwarder smallPool).Meets (PrefetchFits smallPool) (forwarder smallPool).init
      (prefetchActs ++ installPrefetchedActs) := meets_of_check (by decide +kernel)
  obtain ⟨s, hrun, hs⟩ := Option.map_eq_some_iff.1 hlen
  exact ⟨s, hrun, hs, entries_bounded _ _ s hrun hmeets⟩

/-- Call 3 is for another port.  It waits for the prefetch until its timeout,
reserves the second place and opens its session. -/
def reserveActs : List Act :=
  [Act.connect 9090, .task 3 .go, .task 3 (.pod (some ⟨"web-0", some "a"⟩))] ++ goActs 3 20 ++
    [Act.task 3 (.permit .acquired), .task 3 (.opened (.ok idleSession))]

/-- The prefetch takes the place that call 3 has reserved, and the call installs
its session all the same. -/
theorem prefetch_overfills_pool :
    ¬ ∀ (cfg : ForwarderConfig) (acts : List Act) (s : State), 0 < cfg.maxSessions →
      (forwarder cfg).run (forwarder cfg).init acts = some s →
      s.pool.entries.length ≤ cfg.maxSessions := by
  intro hall
  have hlen : ((forwarder smallPool).run (forwarder smallPool).init
      (prefetchActs ++ reserveActs ++ installPrefetchedActs ++ goActs 3 2)).map
        (fun s => s.pool.entries.length) = some 3 := by decide +kernel
  obtain ⟨s, hrun, hs⟩ := Option.map_eq_some_iff.1 hlen
  have hle : s.pool.entries.length ≤ 2 := hall smallPool _ s Nat.two_pos hrun
  omega

end KubePortForward.Forwarder
