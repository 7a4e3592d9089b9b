import KubePortForward.Forwarder.Spares
import KubePortForward.Forwarder.Pool
import Mathlib.Algebra.BigOperators.Group.Finset.Basic

/-!
# What the streams of a session are counted as

`Session::in_use` adds up the pair counters of the connections.  A counter goes up when
`open_stream_pair` reserves a slot and down when the stream is dropped, whoever has the
stream in between: a caller of `connect`, or the queue of spares that
`replenish_spare_streams` fills.

Here each operation is taken whole.  `held` and `spares` are history: the connection that
each stream is counted on, for the streams of callers and for the queued ones.

## Main results

* `openStreamPair_counted` — a call that opens a pair adds one to one counter, and a call
  that fails changes none.
* `accounted_invariant` — along every run each counter is the number of streams that were
  opened on its connection and not dropped.
* `Accounted.inUse_eq` — `in_use` is the number of streams of callers plus that of spares.
-/

namespace KubePortForward.Mux

open KubePortForward.Codec

/-! ## The counters across an open -/

/-- The active pairs of connection `i`. -/
def Session.pairsOn (s : Session) (i : Nat) : Nat :=
  match s.pool[i]? with
  | some m => m.shared.activePairs
  | none => 0

/-- `s'` counts one pair more than `s` on connection `home`, or as many everywhere. -/
def Counted (s s' : Session) (home : Option Nat) : Prop :=
  ∀ i, s'.pairsOn i = s.pairsOn i + if home = some i then 1 else 0

theorem Counted.refl (s : Session) : Counted s s none := fun _ => rfl

theorem Counted.trans {s s' s'' : Session} {home : Option Nat} (h : Counted s s' none)
    (h' : Counted s' s'' home) : Counted s s'' home := by
  intro i
  rw [h' i, h i, if_neg (by simp), Nat.add_zero]

/-- One connection is replaced. -/
theorem Counted.setMember {s : Session} {idx : Nat} {m m' : Member} {home : Option Nat}
    (hm : s.pool[idx]? = some m) (hhome : ∀ i, home = some i → i = idx)
    (h : m'.shared.activePairs = m.shared.activePairs + if home = some idx then 1 else 0) :
    Counted s (s.setMember idx m') home := by
  intro i
  have hlt : idx < s.pool.length := (List.getElem?_eq_some_iff.1 hm).1
  unfold Session.pairsOn Session.setMember
  by_cases hi : i = idx
  · subst hi
    rw [List.getElem?_set_self hlt, hm]
    exact h
  · rw [List.getElem?_set_ne (Ne.symm hi), if_neg (fun hc => hi (hhome i hc))]
    rfl

/-- The pair is counted exactly when the connection hands it out. -/
theorem openStreamPair_activePairs (cfg : MuxConfig) (p : Nat) (eh dh : Headers) (sh : Shared) :
    (∃ pr, (openStreamPair cfg p eh dh sh).1 = .ok pr ∧
      (openStreamPair cfg p eh dh sh).2.activePairs = sh.activePairs + 1) ∨
    (∃ e, (openStreamPair cfg p eh dh sh).1 = .error e ∧
      (openStreamPair cfg p eh dh sh).2.activePairs = sh.activePairs) := by
  unfold openStreamPair
  by_cases hc : sh.cancelled = true
  · exact .inr ⟨_, by rw [if_pos hc], by rw [if_pos hc]⟩
  by_cases hg : sh.goawayReceived = true
  · exact .inr ⟨_, by rw [if_neg hc, if_pos hg], by rw [if_neg hc, if_pos hg]⟩
  simp only [if_neg hc, if_neg hg]
  split
  · exact .inr ⟨_, rfl, rfl⟩
  split
  · exact .inr ⟨_, rfl, rfl⟩
  · exact .inl ⟨_, rfl, rfl⟩

/-- A call that took `s` to `s'` counts one pair more exactly if it opened one. -/
def OpenCounted (s s' : Session) (opened : Prop) : Prop :=
  ∃ home, Counted s s' home ∧ (home.isSome = true ↔ opened)

theorem OpenCounted.none {s s' : Session} {opened : Prop} (h : Counted s s' none)
    (hopened : ¬ opened) : OpenCounted s s' opened :=
  ⟨_, h, by simpa using hopened⟩

theorem OpenCounted.not_opened {s s' : Session} {opened : Prop} (h : OpenCounted s s' opened)
    (hopened : ¬ opened) : Counted s s' .none := by
  obtain ⟨home, hcounted, hiff⟩ := h
  cases home with
  | none => exact hcounted
  | some i => exact absurd (hiff.1 rfl) hopened

variable (eh dh : Headers) (ns : UInt64)

theorem tryOpen_counted (s : Session) (idx : Nat) :
    OpenCounted s (s.tryOpen idx eh dh ns).2
      (∃ pr, (s.tryOpen idx eh dh ns).1 = .ok (some pr)) := by
  unfold Session.tryOpen
  cases hm : s.pool[idx]? with
  | none => exact .none (.refl s) (by simp)
  | some m =>
      by_cases hc : m.shared.cancelled = true
      · simp only [if_pos hc]
        exact .none (.refl s) (by simp)
      simp only [if_neg hc]
      have hpair := openStreamPair_activePairs s.cfg m.opened eh dh m.shared
      generalize openStreamPair s.cfg m.opened eh dh m.shared = out at hpair ⊢
      obtain ⟨r, sh⟩ := out
      rcases hpair with ⟨pr, rfl, hpairs⟩ | ⟨e, rfl, hpairs⟩
      · refine ⟨some idx, Counted.setMember hm (by simp) ?_, by simp⟩
        rw [if_pos rfl]
        exact hpairs
      · cases e with
        | muxClosed => exact .none (Counted.setMember hm (by simp) hpairs) (by simp)
        | capacityExhausted inUse limit =>
            exact .none (Counted.setMember hm (by simp) hpairs) (by simp)

theorem openPreferred_counted (picks : List Nat) (s : Session) :
    OpenCounted s (s.openPreferred eh dh ns picks).2
      (∃ pr, (s.openPreferred eh dh ns picks).1 = .ok (some pr)) := by
  induction picks generalizing s with
  | nil => exact .none (.refl s) (by simp [Session.openPreferred])
  | cons idx rest ih =>
      have htry := tryOpen_counted eh dh ns s idx
      rw [Session.openPreferred]
      generalize s.tryOpen idx eh dh ns = out at htry ⊢
      obtain ⟨r, s'⟩ := out
      rcases r with e | (_ | pr)
      · exact htry
      · obtain ⟨home, hcounted, hiff⟩ := ih s'
        exact ⟨home, (htry.not_opened (by simp)).trans hcounted, hiff⟩
      · exact htry

theorem scan_counted (rounds : Nat) (s : Session) :
    OpenCounted s (s.scan eh dh ns rounds).2
      (∃ pr, (s.scan eh dh ns rounds).1 = .ok pr) := by
  induction rounds generalizing s with
  | zero => exact .none (.refl s) (by simp [Session.scan])
  | succ rounds ih =>
      have htry := tryOpen_counted eh dh ns s.bump (s.next.toNat % s.pool.length)
      rw [Session.scan]
      generalize s.bump.tryOpen (s.next.toNat % s.pool.length) eh dh
        ns = out at htry ⊢
      obtain ⟨r, s'⟩ := out
      -- The counters of `s.bump` are those of `s`.
      rcases r with e | (_ | pr)
      · exact .none (htry.not_opened (by simp)) (by simp)
      · obtain ⟨home, hcounted, hiff⟩ := ih s'
        have hsame : Counted s s' none := htry.not_opened (by simp)
        exact ⟨home, hsame.trans hcounted, hiff⟩
      · obtain ⟨home, hcounted, hiff⟩ := htry
        exact ⟨home, hcounted, by simp [hiff]⟩

/-- `Session::open_stream_pair` counts a pair exactly when it returns one. -/
theorem openStreamPair_counted (s : Session) :
    OpenCounted s (s.openStreamPair eh dh ns).2
      (∃ pr, (s.openStreamPair eh dh ns).1 = .ok pr) := by
  unfold Session.openStreamPair
  by_cases hsize : 2 ≤ s.pool.length
  · simp only [if_pos hsize]
    have hpref := openPreferred_counted eh dh ns (s.preferred s.next) s.bump
    generalize s.bump.openPreferred eh dh ns (s.preferred s.next) =
      out at hpref ⊢
    obtain ⟨r, s'⟩ := out
    rcases r with e | (_ | pr)
    · exact .none (hpref.not_opened (by simp)) (by simp)
    · obtain ⟨home, hcounted, hiff⟩ := scan_counted eh dh ns s.pool.length s'
      have hsame : Counted s s' none := hpref.not_opened (by simp)
      exact ⟨home, hsame.trans hcounted, hiff⟩
    · obtain ⟨home, hcounted, hiff⟩ := hpref
      exact ⟨home, hcounted, by simp [hiff]⟩
  · simp only [if_neg hsize]
    exact scan_counted eh dh ns _ s

end KubePortForward.Mux

namespace KubePortForward.Forwarder

open KubePortForward.Mux
open KubePortForward.Verified.Transition

/-! ## A session and its streams -/

/-- A session with the connections that its streams are counted on, of the streams that
callers hold and of the queued ones. -/
structure Usage where
  session : Session
  held : List Nat
  spares : List Nat

inductive UsageAct where
  | pop
  | openNew (ns : UInt64)
  | replenish (ns : UInt64)
  | drop (k : Nat)
  | stale (k : Nat)
  | flags (i : Nat) (closed goaway : Bool) (limit : UInt32)
  | cancel
  deriving DecidableEq, Repr

/-- The connection on which `s'` counts more pairs than `s`. -/
def openedOn (s s' : Mux.Session) : Option Nat :=
  (List.range s'.pool.length).find? fun i => s.pairsOn i < s'.pairsOn i

namespace Usage

def setMember (u : Usage) (i : Nat) (m : Member) : Usage :=
  { u with session := { u.session with inner := u.session.inner.setMember i m } }

/-- `release_pair` on connection `home`. -/
def release (u : Usage) (home : Nat) : Usage :=
  match u.session.inner.pool[home]? with
  | some m =>
      u.setMember home
        { m with shared := { m.shared with activePairs := m.shared.activePairs - 1 } }
  | none => u

/-- One round of the loop of `connect`: a stale spare is dropped, any other one is handed
to the caller. -/
def pop (u : Usage) : Option Usage :=
  match u.session.spareStreams, u.spares with
  | stream :: rest, home :: homes =>
      let u' := { u with session := { u.session with spareStreams := rest }, spares := homes }
      if stream.readClosed then some (u'.release home)
      else some { u' with held := home :: u.held }
  | _, _ => none

/-- `connect` has found no spare and opens a new stream. -/
def openNew (ns : UInt64) (u : Usage) : Usage :=
  let x := (u.session.openNewStream ns).2
  match (u.session.openNewStream ns).1, openedOn u.session.inner x.inner with
  | .ok _, some home => { u with session := x, held := home :: u.held }
  | _, _ => { u with session := x }

/-- One round of the loop of `replenish_spare_streams`. -/
def replenish (ns : UInt64) (u : Usage) : Option Usage :=
  if u.session.spareStreams.length < SPARE_STREAM_CAP ∧ u.session.isFull = false ∧
      u.session.cancelled = false then
    let x := (u.session.openNewStream ns).2
    match (u.session.openNewStream ns).1, openedOn u.session.inner x.inner with
    | .ok stream, some home =>
        some { u with
          session := { x with spareStreams := x.spareStreams ++ [stream] }
          spares := u.spares ++ [home] }
    | _, _ => some { u with session := x }
  else none

/-- The remote end of a queued spare closes. -/
def stale (k : Nat) (u : Usage) : Usage :=
  { u with session := { u.session with
      spareStreams := u.session.spareStreams.modify k fun st => { st with readClosed := true } } }

/-- The connection's task and its peer change its flags and the peer's limit. -/
def flags (i : Nat) (closed goaway : Bool) (limit : UInt32) (u : Usage) : Usage :=
  match u.session.inner.pool[i]? with
  | some m =>
      u.setMember i { m with shared := { m.shared with
        cancelled := closed, goawayReceived := goaway, peerMaxConcurrent := limit } }
  | none => u

end Usage

def usageStep (u : Usage) : UsageAct → Option Usage
  | .pop => u.pop
  | .openNew ns => some (u.openNew ns)
  | .replenish ns => u.replenish ns
  | .drop k =>
      match u.held[k]? with
      | some home => some ({ u with held := u.held.eraseIdx k }.release home)
      | none => none
  | .stale k => some (u.stale k)
  | .flags i closed goaway limit => some (u.flags i closed goaway limit)
  | .cancel => some { u with session := u.session.cancel }

/-- A session that has just been opened. -/
def usage (session : Session) : System Usage UsageAct where
  init := { session := session, held := [], spares := [] }
  step := usageStep

/-- Every counter is the number of streams on its connection. -/
structure Accounted (u : Usage) : Prop where
  queued : u.spares.length = u.session.spareStreams.length
  counted : ∀ i, u.session.inner.pairsOn i = u.held.count i + u.spares.count i

/-! ## The accounts balance -/

theorem openedOn_eq {s s' : Mux.Session} {home : Option Nat} (h : Counted s s' home) :
    openedOn s s' = home := by
  cases home with
  | none =>
      apply List.find?_eq_none.2
      intro i _
      have hi := h i
      simp only [reduceCtorEq, if_false, Nat.add_zero] at hi
      simp [hi]
  | some j =>
      have hj : s'.pairsOn j = s.pairsOn j + 1 := by simpa using h j
      have hlt : j < s'.pool.length := by
        by_contra hge
        have hzero : s'.pairsOn j = 0 := by
          unfold Mux.Session.pairsOn
          rw [List.getElem?_eq_none (Nat.le_of_not_lt hge)]
        omega
      apply List.find?_range_eq_some.2
      refine ⟨by simpa using (by omega : s.pairsOn j < s'.pairsOn j), List.mem_range.2 hlt, ?_⟩
      intro i hi
      have hsame := h i
      rw [if_neg (fun hc => Nat.ne_of_lt hi (Option.some.inj hc).symm)] at hsame
      simp [hsame]

/-- `open_new_stream` opens a stream on one connection, or counts nothing. -/
theorem openNewStream_counted (ns : UInt64) (x : Session) :
    (x.openNewStream ns).2.spareStreams = x.spareStreams ∧
    ((∃ stream home, (x.openNewStream ns).1 = .ok stream ∧
        openedOn x.inner (x.openNewStream ns).2.inner = some home ∧
        Counted x.inner (x.openNewStream ns).2.inner (some home)) ∨
      (∃ e, (x.openNewStream ns).1 = .error e ∧
        Counted x.inner (x.openNewStream ns).2.inner none)) := by
  have hopen := openStreamPair_counted x.portforwardHeaders.1 x.portforwardHeaders.2 ns x.inner
  unfold Session.openNewStream
  simp only
  generalize x.inner.openStreamPair x.portforwardHeaders.1 x.portforwardHeaders.2 ns =
    out at hopen ⊢
  obtain ⟨r, inner⟩ := out
  cases r with
  | ok pr =>
      obtain ⟨home, hcounted, hiff⟩ := hopen
      cases home with
      | none => exact absurd (hiff.2 ⟨pr, rfl⟩) (by simp)
      | some i => exact ⟨rfl, .inl ⟨_, i, rfl, openedOn_eq hcounted, hcounted⟩⟩
  | error e => exact ⟨rfl, .inr ⟨_, rfl, hopen.not_opened (by simp)⟩⟩

theorem pairsOn_release (u : Usage) (home i : Nat) :
    (u.release home).session.inner.pairsOn i =
      u.session.inner.pairsOn i - if home = i then 1 else 0 := by
  unfold Usage.release
  cases hm : u.session.inner.pool[home]? with
  | none =>
      by_cases hi : home = i
      · subst hi
        simp [Mux.Session.pairsOn, hm]
      · simp [hi]
  | some m =>
      have hlt : home < u.session.inner.pool.length := (List.getElem?_eq_some_iff.1 hm).1
      unfold Usage.setMember Mux.Session.pairsOn Mux.Session.setMember
      by_cases hi : home = i
      · subst hi
        simp [List.getElem?_set_self hlt, hm]
      · simp [List.getElem?_set_ne hi, hi]

@[simp] theorem release_held (u : Usage) (home : Nat) : (u.release home).held = u.held := by
  unfold Usage.release
  split <;> rfl

@[simp] theorem release_spares (u : Usage) (home : Nat) :
    (u.release home).spares = u.spares := by
  unfold Usage.release
  split <;> rfl

@[simp] theorem release_spareStreams (u : Usage) (home : Nat) :
    (u.release home).session.spareStreams = u.session.spareStreams := by
  unfold Usage.release
  split <;> rfl

section

variable {u u' : Usage}

theorem Accounted.pop (h : Accounted u) (hs : u.pop = some u') : Accounted u' := by
  unfold Usage.pop at hs
  split at hs
  · next stream rest home homes hstreams hspares =>
      have hqueued := h.queued
      rw [hstreams, hspares, List.length_cons, List.length_cons] at hqueued
      have hcounted := h.counted
      simp only [hspares, List.count_cons, beq_iff_eq] at hcounted
      split at hs
      · obtain rfl := Option.some.inj hs
        refine ⟨by simpa using Nat.succ.inj hqueued, fun i => ?_⟩
        rw [pairsOn_release, release_held, release_spares]
        have hi := hcounted i
        show u.session.inner.pairsOn i - _ = u.held.count i + homes.count i
        omega
      · obtain rfl := Option.some.inj hs
        refine ⟨Nat.succ.inj hqueued, fun i => ?_⟩
        have hi := hcounted i
        show u.session.inner.pairsOn i = (home :: u.held).count i + homes.count i
        simp only [List.count_cons, beq_iff_eq]
        omega
  · contradiction

theorem Accounted.openNew (h : Accounted u) (ns : UInt64) : Accounted (u.openNew ns) := by
  obtain ⟨hspares, ⟨stream, home, hr, hhome, hcounted⟩ | ⟨e, hr, hcounted⟩⟩ :=
    openNewStream_counted ns u.session
  · simp only [Usage.openNew, hr, hhome]
    refine ⟨by rw [hspares]; exact h.queued, fun i => ?_⟩
    have hi := hcounted i
    rw [h.counted i] at hi
    rw [hi, List.count_cons]
    simp only [Option.some.injEq, beq_iff_eq]
    omega
  · simp only [Usage.openNew, hr]
    refine ⟨by rw [hspares]; exact h.queued, fun i => ?_⟩
    rw [hcounted i, h.counted i]
    rfl

theorem Accounted.replenish (h : Accounted u) {ns : UInt64}
    (hs : u.replenish ns = some u') : Accounted u' := by
  unfold Usage.replenish at hs
  split at hs
  · obtain ⟨hspares, ⟨stream, home, hr, hhome, hcounted⟩ | ⟨e, hr, hcounted⟩⟩ :=
      openNewStream_counted ns u.session
    · simp only [hr, hhome, Option.some.injEq] at hs
      obtain rfl := hs
      refine ⟨by simp [hspares, h.queued], fun i => ?_⟩
      have hi := hcounted i
      rw [h.counted i] at hi
      rw [List.count_append, List.count_singleton]
      simp only [Option.some.injEq, beq_iff_eq] at hi ⊢
      omega
    · simp only [hr, Option.some.injEq] at hs
      obtain rfl := hs
      refine ⟨by rw [hspares]; exact h.queued, fun i => ?_⟩
      rw [hcounted i, h.counted i]
      rfl
  · contradiction

/-- A caller drops a stream it holds. -/
theorem Accounted.drop (h : Accounted u) {k home : Nat} (hk : u.held[k]? = some home) :
    Accounted ({ u with held := u.held.eraseIdx k }.release home) := by
  obtain ⟨hlt, rfl⟩ := List.getElem?_eq_some_iff.1 hk
  refine ⟨by simpa using h.queued, fun i => ?_⟩
  have hperm := List.getElem_cons_eraseIdx_perm hlt
  have hcount : u.held.count i = (u.held.eraseIdx k).count i + if u.held[k] = i then 1 else 0 := by
    rw [← hperm.count_eq i, List.count_cons]
    simp
  have hi := h.counted i
  rw [pairsOn_release, release_held, release_spares]
  show u.session.inner.pairsOn i - _ = (u.held.eraseIdx k).count i + u.spares.count i
  omega

end

/-- Replacing a connection by one with as many pairs changes no account. -/
theorem Accounted.setMember {u : Usage} (h : Accounted u) {i : Nat} {m m' : Member}
    (hm : u.session.inner.pool[i]? = some m)
    (hpairs : m'.shared.activePairs = m.shared.activePairs) : Accounted (u.setMember i m') := by
  refine ⟨h.queued, fun j => ?_⟩
  have hcounted : Counted u.session.inner (u.session.inner.setMember i m') none :=
    Counted.setMember hm (by simp) hpairs
  show (u.session.inner.setMember i m').pairsOn j = _
  rw [hcounted j, h.counted j]
  rfl

/-- One step of the session keeps the accounts. -/
theorem usageStep_accounted {u u' : Usage} {a : UsageAct} (h : Accounted u)
    (hs : usageStep u a = some u') : Accounted u' := by
  cases a with
  | pop => exact h.pop hs
  | openNew ns =>
      obtain rfl := Option.some.inj hs
      exact h.openNew ns
  | replenish ns => exact h.replenish hs
  | drop k =>
      simp only [usageStep] at hs
      split at hs
      · next home hk =>
          obtain rfl := Option.some.inj hs
          exact h.drop hk
      · contradiction
  | stale k =>
      obtain rfl := Option.some.inj hs
      exact ⟨by simpa [Usage.stale] using h.queued, h.counted⟩
  | flags i closed goaway limit =>
      obtain rfl := Option.some.inj hs
      unfold Usage.flags
      split
      · next m hm => exact h.setMember hm rfl
      · exact h
  | cancel =>
      obtain rfl := Option.some.inj hs
      refine ⟨h.queued, fun i => ?_⟩
      rw [← h.counted i]
      simp only [Session.cancel, Mux.Session.pairsOn, List.getElem?_map]
      cases u.session.inner.pool[i]? <;> rfl

/-- A session that starts without pairs and spares has its accounts in balance along
every run. -/
theorem accounted_invariant {session : Session} (hspares : session.spareStreams = [])
    (hpairs : ∀ m ∈ session.inner.pool, m.shared.activePairs = 0) :
    (usage session).Invariant anyStep Accounted := by
  refine Invariant.of_step ?_ fun u a u' h _ hs => usageStep_accounted h hs
  refine ⟨by simp [usage, hspares], fun i => ?_⟩
  show session.inner.pairsOn i = 0
  unfold Mux.Session.pairsOn
  split
  · next m hm => exact hpairs m (List.mem_of_getElem? hm)
  · rfl

/-- The counters of all connections together. -/
theorem inUse_eq_sum (s : Mux.Session) :
    s.inUse = ∑ i ∈ Finset.range s.pool.length, s.pairsOn i := by
  have hmap : (s.pool.map fun m => m.shared.activePairs) =
      (List.range s.pool.length).map s.pairsOn := by
    apply List.ext_getElem
    · simp
    · intro i hi _
      have hlt : i < s.pool.length := by simpa using hi
      simp [Mux.Session.pairsOn, List.getElem?_eq_getElem hlt]
  rw [Mux.Session.inUse, hmap]
  rfl

/-- `in_use` does not tell the streams of callers from the spares. -/
theorem Accounted.inUse_eq {u : Usage} (h : Accounted u) :
    u.session.inUse = u.held.length + u.session.spareStreams.length := by
  have hcount : ∀ i, u.session.inner.pairsOn i = (u.held ++ u.spares : Multiset Nat).count i := by
    intro i
    rw [h.counted i, Multiset.coe_count, List.count_append]
  have hmem : ∀ i ∈ (u.held ++ u.spares : Multiset Nat),
      i ∈ Finset.range u.session.inner.pool.length := by
    intro i hi
    have hpos := Multiset.count_pos.2 hi
    rw [← hcount i] at hpos
    rw [Finset.mem_range]
    by_contra hge
    rw [Mux.Session.pairsOn, List.getElem?_eq_none (Nat.le_of_not_lt hge)] at hpos
    exact Nat.lt_irrefl 0 hpos
  calc u.session.inUse
      = ∑ i ∈ Finset.range u.session.inner.pool.length, u.session.inner.pairsOn i :=
        inUse_eq_sum _
    _ = ∑ i ∈ Finset.range u.session.inner.pool.length,
          (u.held ++ u.spares : Multiset Nat).count i :=
        Finset.sum_congr rfl fun i _ => hcount i
    _ = (u.held ++ u.spares : Multiset Nat).card := Multiset.sum_count_eq_card hmem
    _ = u.held.length + u.session.spareStreams.length := by simp [h.queued]

end KubePortForward.Forwarder
