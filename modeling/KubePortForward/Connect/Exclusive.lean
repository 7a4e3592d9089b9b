import Mathlib.Data.List.Perm.Subperm
import Mathlib.Data.List.Nodup
import KubePortForward.Connect.Negotiation

/-!
# Whose connection is it

A connection on which an upgrade is in flight, and one that switched protocols, is
that upgrade's and nobody else's: the client hands out neither.  So the connections
that a session was built on are that session's alone, whoever else opens sessions
through the same client, and whatever becomes of the connections of upgrades that
were rejected.

## Main results

* `owned_invariant` — what an opening has in flight or has got is its own.
* `session_connections` — the connections of an opened session are its own, each
  of them accepted the session's protocol, and there are at most as many as were
  asked for.
-/

namespace KubePortForward.Connect

open KubePortForward.Codec (asBytes)
open KubePortForward.Forwarder (Error)
open KubePortForward.Verified.Transition

/-! ## What an opening holds -/

/-- The answer gives the connection to the call that asked. -/
def Answer.switches : Answer → Bool
  | .failed _ => false
  | .response res _ => res.status == SWITCHING_PROTOCOLS

/-- The connection of a request, once its answer has given it to the call. -/
def kept (c : ConnId) : Option Answer → List ConnId
  | some a => if a.switches then [c] else []
  | none => []

def ExtraPc.waits : ExtraPc → List ConnId
  | .inFlight c none => [c]
  | _ => []

def ExtraPc.keeps : ExtraPc → List ConnId
  | .inFlight c answer => kept c answer
  | .finished (.ok c) => [c]
  | _ => []

/-- The connection a task of the pool came back with. -/
def ExtraPc.got : ExtraPc → List ConnId
  | .finished (.ok c) => [c]
  | _ => []

/-- The connections over which an opening waits for an answer. -/
def Opening.waits (o : Opening) : List ConnId :=
  match o.pc with
  | .probing c none => [c]
  | .fallingBack _ c none => [c]
  | .filling _ _ _ => o.extras.flatMap ExtraPc.waits
  | _ => []

/-- The connections that were given to an opening. -/
def Opening.keeps (o : Opening) : List ConnId :=
  match o.pc with
  | .probing c answer => kept c answer
  | .fallingBack _ c answer => kept c answer
  | .filling _ first succeeded => first :: succeeded ++ o.extras.flatMap ExtraPc.keeps
  | .spawning _ todo handles _ => handles ++ todo
  | .opened _ handles => handles
  | _ => []

/-- Every connection an opening has in flight or has got. -/
def Opening.holds (o : Opening) : List ConnId := o.waits ++ o.keeps

/-- The request that is out for the probe, or for a task of the pool: over which
connection, in which protocol, and the answer if it is there. -/
def Opening.flight (o : Opening) : Who → Option (ConnId × Subprotocol × Option Answer)
  | .probe =>
      match o.pc with
      | .probing c answer => some (c, .spdy31Tunnel, answer)
      | .fallingBack _ c answer => some (c, .legacySpdy, answer)
      | _ => none
  | .extra j =>
      match o.pc with
      | .filling protocol _ _ =>
          match o.extras[j]? with
          | some (.inFlight c answer) => some (c, protocol, answer)
          | _ => none
      | _ => none

/-- The connections that are to carry the session, and in which protocol. -/
def Opening.pool (o : Opening) : Option (Subprotocol × List ConnId) :=
  match o.pc with
  | .filling protocol first succeeded =>
      some (protocol, first :: succeeded ++ o.extras.flatMap ExtraPc.got)
  | .spawning protocol todo handles _ => some (protocol, handles ++ todo)
  | .opened protocol handles => some (protocol, handles)
  | _ => none

def Opening.Pools (o : Opening) (protocol : Subprotocol) (c : ConnId) : Prop :=
  ∃ cs, o.pool = some (protocol, cs) ∧ c ∈ cs

/-- No more connections than were asked for. -/
def Pc.Fits (poolSize : Nat) (extras : List ExtraPc) : Pc → Prop
  | .filling _ _ succeeded =>
      extras.length = poolSize - 1 ∧ succeeded.length ≤ extras.countP (· = .joined)
  | .spawning _ todo handles _ => handles.length + todo.length ≤ poolSize
  | .opened _ handles => handles ≠ [] ∧ handles.length ≤ poolSize
  | _ => True

def Opening.Sized (o : Opening) : Prop := 0 < o.poolSize ∧ o.pc.Fits o.poolSize o.extras

/-- What a move of an opening other than a request or an answer on the wire does: it is
given no connection, it has nothing in flight that it had not, and it pools no connection
but `new`. -/
structure Opening.Goes (o o' : Opening) (new : Option (Subprotocol × ConnId)) : Prop where
  keeps : List.Subperm o'.keeps o.keeps
  flights : ∀ who x, o'.flight who = some x → o.flight who = some x
  pools : ∀ protocol c, o'.Pools protocol c → o.Pools protocol c ∨ new = some (protocol, c)
  sized : o.Sized → o'.Sized

theorem waits_flight {o : Opening} {c : ConnId} (h : c ∈ o.waits) :
    ∃ who protocol, o.flight who = some (c, protocol, none) := by
  unfold Opening.waits at h
  split at h
  · next d hpc =>
      rw [List.mem_singleton.mp h]
      exact ⟨.probe, .spdy31Tunnel, by simp only [Opening.flight, hpc]⟩
  · next wsError d hpc =>
      rw [List.mem_singleton.mp h]
      exact ⟨.probe, .legacySpdy, by simp only [Opening.flight, hpc]⟩
  · next protocol first succeeded hpc =>
      obtain ⟨x, hx, hc⟩ := List.mem_flatMap.mp h
      obtain ⟨j, hj⟩ := List.mem_iff_getElem?.mp hx
      unfold ExtraPc.waits at hc
      split at hc
      · rw [List.mem_singleton.mp hc]
        exact ⟨.extra j, protocol, by simp only [Opening.flight, hpc, hj]⟩
      · cases hc
  · cases h

/-- Replacing one element of a list changes what it contributes and nothing else. -/
theorem flatMap_set_perm {α β : Type} {l : List α} {j : Nat} {y : α} (f : α → List β)
    (h : l[j]? = some y) (x : α) :
    ∃ rest, (l.flatMap f).Perm (f y ++ rest) ∧ ((l.set j x).flatMap f).Perm (f x ++ rest) := by
  induction l generalizing j with
  | nil => cases h
  | cons a l ih =>
      cases j with
      | zero =>
          cases h
          exact ⟨l.flatMap f, .refl _, .refl _⟩
      | succ j =>
          obtain ⟨rest, hold, hnew⟩ := ih h
          refine ⟨f a ++ rest, ?_, ?_⟩
          · exact (hold.append_left (f a)).trans (List.perm_append_comm_assoc _ _ _)
          · exact (hnew.append_left (f a)).trans (List.perm_append_comm_assoc _ _ _)

theorem countP_set_of {α : Type} {l : List α} {j : Nat} {x y : α} {p : α → Bool}
    (h : l[j]? = some y) (hy : p y = false) :
    (l.set j x).countP p = l.countP p + if p x then 1 else 0 := by
  induction l generalizing j with
  | nil => cases h
  | cons a l ih =>
      cases j with
      | zero =>
          cases h
          simp [List.countP_cons, hy]
      | succ j =>
          simp only [List.set_cons_succ, List.countP_cons, ih h]
          omega

/-! ## The moves of an opening -/

theorem pools_filling {o : Opening} {protocol : Subprotocol} {first : ConnId}
    {succeeded : List ConnId} (hpc : o.pc = .filling protocol first succeeded)
    {protocol' : Subprotocol} {c : ConnId} :
    o.Pools protocol' c ↔
      protocol' = protocol ∧ (c ∈ first :: succeeded ∨ c ∈ o.extras.flatMap ExtraPc.got) := by
  constructor
  · rintro ⟨cs, hcs, hc⟩
    simp only [Opening.pool, hpc, Option.some.injEq, Prod.mk.injEq] at hcs
    obtain ⟨rfl, rfl⟩ := hcs
    exact ⟨rfl, List.mem_append.mp hc⟩
  · rintro ⟨rfl, hc⟩
    exact ⟨_, by simp only [Opening.pool, hpc], List.mem_append.mpr hc⟩

theorem keeps_filling {o : Opening} {protocol : Subprotocol} {first : ConnId}
    {succeeded : List ConnId} (hpc : o.pc = .filling protocol first succeeded) :
    o.keeps = first :: succeeded ++ o.extras.flatMap ExtraPc.keeps := by
  simp only [Opening.keeps, hpc]

/-- Where the pool is not being filled, the tasks have no part in anything. -/
theorem setExtra_elsewhere {o : Opening} (j : Nat) (x : ExtraPc)
    (hpc : ∀ protocol first succeeded, o.pc ≠ .filling protocol first succeeded) :
    (o.setExtra j x).keeps = o.keeps ∧ (o.setExtra j x).pool = o.pool ∧
      (∀ who, (o.setExtra j x).flight who = o.flight who) ∧
      (o.Sized → (o.setExtra j x).Sized) := by
  have hpc' : (o.setExtra j x).pc = o.pc := rfl
  cases h : o.pc with
  | filling protocol first succeeded => exact absurd h (hpc protocol first succeeded)
  | _ =>
      rw [h] at hpc'
      refine ⟨?_, ?_, ?_, ?_⟩
      · simp only [Opening.keeps, hpc', h]
      · simp only [Opening.pool, hpc', h]
      · intro who
        cases who <;> simp only [Opening.flight, hpc', h]
      · rintro ⟨hpos, hfits⟩
        refine ⟨hpos, ?_⟩
        rw [h] at hfits
        rw [hpc']
        exact hfits

/-- The tasks of the pool are counted as before when one moves that was not joined. -/
theorem sized_setExtra {o : Opening} {j : Nat} {x y : ExtraPc} (h : o.extras[j]? = some y)
    (hy : y ≠ .joined) (ho : o.Sized) : (o.setExtra j x).Sized := by
  obtain ⟨hpos, hfits⟩ := ho
  by_cases hfilling : ∃ protocol first succeeded, o.pc = .filling protocol first succeeded
  · obtain ⟨protocol, first, succeeded, hpc⟩ := hfilling
    rw [hpc] at hfits
    obtain ⟨hlen, hcount⟩ := hfits
    refine ⟨hpos, ?_⟩
    show o.pc.Fits o.poolSize (o.extras.set j x)
    rw [hpc]
    refine ⟨by simpa using hlen, ?_⟩
    rw [countP_set_of h (by simpa using hy)]
    omega
  · refine (setExtra_elsewhere j x ?_).2.2.2 ⟨hpos, hfits⟩
    intro protocol first succeeded hpc
    exact hfilling ⟨protocol, first, succeeded, hpc⟩

/-- A task of the pool moves on. -/
theorem goes_setExtra {o : Opening} {j : Nat} {x y : ExtraPc}
    {new : Option (Subprotocol × ConnId)} (h : o.extras[j]? = some y) (hy : y ≠ .joined)
    (hflight : ∀ c answer, x ≠ .inFlight c answer) (hkeeps : List.Subperm x.keeps y.keeps)
    (hgot : ∀ protocol first succeeded c, o.pc = .filling protocol first succeeded →
      c ∈ x.got → c ∈ y.got ∨ new = some (protocol, c)) :
    o.Goes (o.setExtra j x) new := by
  by_cases hfilling : ∃ protocol first succeeded, o.pc = .filling protocol first succeeded
  · obtain ⟨protocol, first, succeeded, hpc⟩ := hfilling
    have hpc' : (o.setExtra j x).pc = .filling protocol first succeeded := hpc
    refine ⟨?_, ?_, ?_, sized_setExtra h hy⟩
    · rw [keeps_filling hpc, keeps_filling hpc']
      obtain ⟨rest, hold, hnew⟩ := flatMap_set_perm ExtraPc.keeps h x
      apply List.Subperm.append (List.Subperm.refl _)
      refine hnew.subperm.trans (List.Subperm.trans ?_ hold.symm.subperm)
      exact List.Subperm.append hkeeps (List.Subperm.refl rest)
    · intro who z hz
      cases who with
      | probe =>
          simp only [Opening.flight, hpc'] at hz
          cases hz
      | extra k =>
          simp only [Opening.flight, hpc'] at hz
          simp only [Opening.setExtra, List.getElem?_set] at hz
          simp only [Opening.flight, hpc]
          by_cases hk : j = k
          · rw [if_pos hk] at hz
            split at hz
            · next c answer hx =>
                split at hx
                · cases hx
                  exact absurd rfl (hflight c answer)
                · cases hx
            · cases hz
          · rw [if_neg hk] at hz
            exact hz
    · intro protocol' c hc
      rw [pools_filling hpc'] at hc
      rw [pools_filling hpc]
      obtain ⟨rfl, hc⟩ := hc
      rcases hc with hc | hc
      · exact .inl ⟨rfl, .inl hc⟩
      obtain ⟨rest, hold, hnew⟩ := flatMap_set_perm ExtraPc.got h x
      rcases List.mem_append.mp (hnew.subset hc) with hx | hrest
      · rcases hgot _ _ _ c hpc hx with hin | hin
        · exact .inl ⟨rfl, .inr (hold.symm.subset (List.mem_append_left _ hin))⟩
        · exact .inr hin
      · exact .inl ⟨rfl, .inr (hold.symm.subset (List.mem_append_right _ hrest))⟩
  · obtain ⟨hsame, hpool, hflights, -⟩ := setExtra_elsewhere (o := o) j x fun protocol first
      succeeded hpc => hfilling ⟨protocol, first, succeeded, hpc⟩
    refine ⟨?_, ?_, ?_, sized_setExtra h hy⟩
    · rw [hsame]
    · intro who z hz
      rw [← hflights who]
      exact hz
    · rintro protocol c ⟨cs, hcs, hc⟩
      exact .inl ⟨cs, hpool ▸ hcs, hc⟩

/-- The call itself moves on, to where it has nothing in flight, holds nothing and pools
nothing. -/
theorem goes_setPc {o : Opening} {pc : Pc} {new : Option (Subprotocol × ConnId)}
    (hkeeps : ({ o with pc := pc } : Opening).keeps = [])
    (hflight : ∀ who, ({ o with pc := pc } : Opening).flight who = none)
    (hpool : ({ o with pc := pc } : Opening).pool = none)
    (hsized : 0 < o.poolSize → ({ o with pc := pc } : Opening).Sized) :
    o.Goes { o with pc := pc } new where
  keeps := by
    rw [hkeeps]
    exact List.nil_subperm
  flights := by
    intro who x hx
    rw [hflight who] at hx
    cases hx
  pools := by
    rintro protocol c ⟨cs, hcs, -⟩
    rw [hpool] at hcs
    cases hcs
  sized := fun h => hsized h.1

theorem goes_fill {o : Opening} {protocol : Subprotocol} {c : ConnId} (hc : c ∈ o.keeps) :
    o.Goes (o.fill protocol c) (some (protocol, c)) where
  keeps := by
    have hnone : ∀ n, (List.replicate n ExtraPc.ready).flatMap ExtraPc.keeps = [] := by
      intro n
      rw [List.flatMap_eq_nil_iff]
      intro x hx
      rw [List.eq_of_mem_replicate hx]
      rfl
    show List.Subperm ([c] ++ (List.replicate _ ExtraPc.ready).flatMap _) _
    rw [hnone, List.append_nil]
    exact List.singleton_subperm_iff.mpr hc
  flights := by
    intro who x hx
    have hpc : (o.fill protocol c).pc = .filling protocol c [] := rfl
    cases who with
    | probe =>
        simp only [Opening.flight, hpc] at hx
        cases hx
    | extra j =>
        simp only [Opening.flight, hpc] at hx
        split at hx
        · next d answer hd =>
            have := List.eq_of_mem_replicate (List.mem_of_getElem? hd)
            cases this
        · cases hx
  pools := by
    intro protocol' d hd
    have hpc : (o.fill protocol c).pc = .filling protocol c [] := rfl
    rw [pools_filling hpc] at hd
    obtain ⟨rfl, hd | hd⟩ := hd
    · rw [List.mem_singleton] at hd
      exact .inr (by rw [hd])
    · obtain ⟨x, hx, hxd⟩ := List.mem_flatMap.mp hd
      rw [List.eq_of_mem_replicate hx] at hxd
      cases hxd
  sized := by
    rintro ⟨hpos, -⟩
    exact ⟨hpos, List.length_replicate, Nat.zero_le _⟩

theorem goes_failed {o : Opening} (e : OpenFailure) {new : Option (Subprotocol × ConnId)} :
    o.Goes { o with pc := .failed e } new :=
  goes_setPc rfl (fun who => by cases who <;> rfl) rfl fun hpos => ⟨hpos, trivial⟩

theorem goes_probed {o o' : Opening} {r : Except Error ConnId} {signal : Option RecoverySignal}
    (hr : ∀ c, r = .ok c → c ∈ o.keeps) (h : o.probed r = (o', signal)) :
    o.Goes o' (r.toOption.map fun c => (.spdy31Tunnel, c)) := by
  cases r with
  | ok c =>
      cases h
      exact goes_fill (hr c rfl)
  | error e =>
      simp only [Opening.probed] at h
      split at h
      · cases h
        exact goes_setPc rfl (fun who => by cases who <;> rfl) rfl fun hpos => ⟨hpos, trivial⟩
      · cases h
        exact goes_failed _

theorem goes_fellBack {o o' : Opening} {wsError : Error} {r : Except Error ConnId}
    {signal : Option RecoverySignal} (hr : ∀ c, r = .ok c → c ∈ o.keeps)
    (h : o.fellBack wsError r = (o', signal)) :
    o.Goes o' (r.toOption.map fun c => (.legacySpdy, c)) := by
  cases r with
  | ok c =>
      cases h
      exact goes_fill (hr c rfl)
  | error e =>
      cases h
      exact goes_failed _

/-- What acting on the answer to an upgrade adds to a pool. -/
def pooledBy (protocol : Subprotocol) (c : ConnId) (a : Answer) : Option (Subprotocol × ConnId) :=
  match protocol.perform a with
  | .ok () => some (protocol, c)
  | .error _ => none

theorem pooledBy_eq (protocol : Subprotocol) (c : ConnId) (a : Answer) :
    pooledBy protocol c a =
      ((protocol.perform a).map fun _ => c).toOption.map fun d => (protocol, d) := by
  unfold pooledBy
  cases protocol.perform a with
  | ok x => rfl
  | error e => rfl

/-- An upgrade only succeeds when the protocol was switched. -/
theorem switches_of_perform {protocol : Subprotocol} {a : Answer}
    (h : protocol.perform a = .ok ()) : a.switches = true := by
  cases a with
  | failed message => cases protocol <;> cases h
  | response res upgraded =>
      by_cases hstatus : res.status = SWITCHING_PROTOCOLS
      · exact beq_iff_eq.mpr hstatus
      · cases protocol with
        | spdy31Tunnel =>
            simp only [Subprotocol.perform, performWsUpgrade, ne_eq, hstatus,
              not_false_eq_true, if_true] at h
            cases h
        | legacySpdy =>
            simp only [Subprotocol.perform, performLegacySpdyUpgrade, ne_eq, hstatus,
              not_false_eq_true, if_true] at h
            cases h

/-- A connection that an upgrade succeeded on was given to the call with the answer. -/
theorem kept_of_map {p : Subprotocol} {a : Answer} {c d : ConnId}
    (h : (p.perform a).map (fun _ => c) = .ok d) : d ∈ kept c (some a) := by
  cases hr : p.perform a with
  | error e =>
      rw [hr] at h
      cases h
  | ok x =>
      rw [hr] at h
      cases h
      rw [kept, if_pos (switches_of_perform hr)]
      exact List.mem_singleton_self c

theorem goes_answer {o o' : Opening} {a : Answer} {who : Who} {c : ConnId}
    {protocol : Subprotocol} {signal : Option RecoverySignal}
    (h : o.answer who = some (c, protocol, a, o', signal)) :
    o.Goes o' (pooledBy protocol c a) ∧ o.flight who = some (c, protocol, some a) := by
  rw [pooledBy_eq]
  cases who with
  | probe =>
      simp only [Opening.answer] at h
      split at h
      · next c' a' hpc =>
          simp only [Option.some.injEq, Prod.mk.injEq] at h
          obtain ⟨rfl, rfl, rfl, ho⟩ := h
          refine ⟨goes_probed (fun d hd => ?_) ho, by simp only [Opening.flight, hpc]⟩
          simp only [Opening.keeps, hpc]
          exact kept_of_map (p := .spdy31Tunnel) hd
      · next wsError c' a' hpc =>
          simp only [Option.some.injEq, Prod.mk.injEq] at h
          obtain ⟨rfl, rfl, rfl, ho⟩ := h
          refine ⟨goes_fellBack (fun d hd => ?_) ho, by simp only [Opening.flight, hpc]⟩
          simp only [Opening.keeps, hpc]
          exact kept_of_map (p := .legacySpdy) hd
      · cases h
  | extra j =>
      simp only [Opening.answer] at h
      split at h
      · next protocol' first succeeded hpc =>
          split at h
          · next c' a' hx =>
              simp only [Option.some.injEq, Prod.mk.injEq] at h
              obtain ⟨rfl, rfl, rfl, rfl, rfl⟩ := h
              refine ⟨goes_setExtra hx (by simp) (by simp) ?_ ?_,
                by simp only [Opening.flight, hpc, hx]⟩
              · cases hr : (protocol'.perform a').map fun _ => c' with
                | error e => exact List.nil_subperm
                | ok d => exact List.singleton_subperm_iff.mpr (kept_of_map hr)
              · intro p f su d hfill hd
                rw [hpc] at hfill
                cases hfill
                cases hr : (protocol'.perform a').map fun _ => c' with
                | error e =>
                    rw [hr] at hd
                    cases hd
                | ok d' =>
                    rw [hr] at hd
                    rw [List.mem_singleton.mp hd]
                    exact .inr rfl
          · cases h
      · cases h

theorem goes_unsent {o o' : Opening} {message : String} {who : Who}
    {signal : Option RecoverySignal} (h : o.unsent message who = some (o', signal)) :
    o.Goes o' none := by
  cases who with
  | probe =>
      simp only [Opening.unsent] at h
      split at h
      · simp only [Option.some.injEq] at h
        exact goes_probed (r := .error _) (fun c hc => by cases hc) h
      · simp only [Option.some.injEq] at h
        exact goes_fellBack (r := .error _) (fun c hc => by cases hc) h
      · cases h
  | extra j =>
      simp only [Opening.unsent] at h
      split at h
      · next hx =>
          cases h
          exact goes_setExtra hx (by simp) (by simp) List.nil_subperm
            fun _ _ _ _ _ hd => by cases hd
      · cases h

theorem goes_panic {o o' : Opening} {j : Nat} (h : o.panic j = some o') :
    o.Goes o' none ∧ o'.flight (.extra j) = none := by
  have hgone : (o.setExtra j .panicked).flight (.extra j) = none := by
    simp only [Opening.flight, Opening.setExtra, List.getElem?_set_self']
    cases o.extras[j]? <;> cases o.pc <;> rfl
  unfold Opening.panic at h
  split at h
  · next hx =>
      cases h
      exact ⟨goes_setExtra hx (by simp) (by simp) List.nil_subperm
        fun _ _ _ _ _ hd => (by cases hd), hgone⟩
  · next c answer hx =>
      cases h
      exact ⟨goes_setExtra hx (by simp) (by simp) List.nil_subperm
        fun _ _ _ _ _ hd => (by cases hd), hgone⟩
  · cases h

theorem goes_join {o o' : Opening} {j : Nat} (h : o.join j = some o') : o.Goes o' none := by
  simp only [Opening.join] at h
  split at h
  · next protocol first succeeded hpc =>
      split at h
      · next c hx =>
          cases h
          -- The connection moves from the task to the list, so nothing is gained or lost.
          have hmoved : o.Goes (o.setExtra j .joined) none :=
            goes_setExtra hx (by simp) (by simp) List.nil_subperm fun _ _ _ _ _ hd => by cases hd
          refine ⟨?_, ?_, ?_, ?_⟩
          · obtain ⟨rest, hold, hnew⟩ := flatMap_set_perm ExtraPc.keeps hx .joined
            rw [keeps_filling hpc, keeps_filling (o := Opening.setExtra _ _ _) rfl]
            refine ((hnew.append_left _).trans ?_).subperm
            refine List.Perm.trans ?_ (hold.symm.append_left _)
            simp [ExtraPc.keeps]
          · intro who x hx'
            have hsame : Opening.flight (Opening.setExtra
                { o with pc := .filling protocol first (succeeded ++ [c]) } j .joined) who =
                (o.setExtra j .joined).flight who := by
              have hpc' : (o.setExtra j .joined).pc = .filling protocol first succeeded := hpc
              cases who with
              | probe => simp only [Opening.flight, Opening.setExtra, hpc]
              | extra k => simp only [Opening.flight, Opening.setExtra, hpc]
            rw [hsame] at hx'
            exact hmoved.flights who x hx'
          · intro protocol' d hd
            rw [pools_filling (o := Opening.setExtra _ _ _) rfl] at hd
            rw [pools_filling hpc]
            obtain ⟨rfl, hd⟩ := hd
            refine .inl ⟨rfl, ?_⟩
            obtain ⟨rest, hold, hnew⟩ := flatMap_set_perm ExtraPc.got hx .joined
            rcases hd with hd | hd
            · rw [← List.cons_append, List.mem_append, List.mem_singleton] at hd
              rcases hd with hd | rfl
              · exact .inl hd
              · exact .inr (hold.symm.subset (List.mem_cons_self))
            · exact .inr (hold.symm.subset (List.mem_cons_of_mem _ (hnew.subset hd)))
          · rintro ⟨hpos, hsized⟩
            rw [hpc] at hsized
            refine ⟨hpos, by simpa [Opening.setExtra] using hsized.1, ?_⟩
            have hcount := hsized.2
            show (succeeded ++ [c]).length ≤ (o.extras.set j .joined).countP _
            rw [countP_set_of hx rfl, List.length_append]
            simpa using hcount
      · next e hx =>
          cases h
          exact goes_setExtra hx (by simp) (by simp) List.nil_subperm
            fun _ _ _ _ _ hd => by cases hd
      · next hx =>
          cases h
          exact goes_setExtra hx (by simp) (by simp) List.nil_subperm
            fun _ _ _ _ _ hd => by cases hd
      · cases h
  · cases h

theorem goes_joinedAll {o o' : Opening} (h : o.joinedAll = some o') : o.Goes o' none := by
  simp only [Opening.joinedAll] at h
  split at h
  · next protocol first succeeded hpc =>
      split at h
      · cases h
        refine ⟨?_, ?_, ?_, ?_⟩
        · rw [keeps_filling hpc]
          show List.Subperm ([] ++ first :: succeeded) _
          exact (List.sublist_append_left _ _).subperm
        · intro who x hx
          cases who <;> cases hx
        · rintro protocol' d ⟨cs, hcs, hd⟩
          cases hcs
          exact .inl ((pools_filling hpc).mpr ⟨rfl, .inl hd⟩)
        · rintro ⟨hpos, hsized⟩
          rw [hpc] at hsized
          obtain ⟨hlen, hcount⟩ := hsized
          have hle := List.countP_le_length (p := (· = ExtraPc.joined)) (l := o.extras)
          refine ⟨hpos, ?_⟩
          show 0 + (succeeded.length + 1) ≤ o.poolSize
          omega
      · cases h
  · cases h

theorem goes_spawn {o o' : Opening} {result : Except SpawnError Unit}
    (h : o.spawn result = some o') : o.Goes o' none := by
  simp only [Opening.spawn] at h
  split at h
  · next protocol c todo handles lastError hpc =>
      have hpool : o.pool = some (protocol, handles ++ c :: todo) := by
        simp only [Opening.pool, hpc]
      have hkeeps : o.keeps = handles ++ c :: todo := by
        simp only [Opening.keeps, hpc]
      have hsized : o.Sized → 0 < o.poolSize ∧ handles.length + (todo.length + 1) ≤ o.poolSize := by
        rintro ⟨hpos, hfits⟩
        rw [hpc] at hfits
        exact ⟨hpos, hfits⟩
      split at h
      · cases h
        refine ⟨?_, ?_, ?_, ?_⟩
        · rw [hkeeps]
          show List.Subperm (handles ++ [c] ++ todo) _
          rw [List.append_assoc]
          exact List.Subperm.refl _
        · intro who x hx
          cases who <;> cases hx
        · rintro protocol' d ⟨cs, hcs, hd⟩
          cases hcs
          rw [List.append_assoc] at hd
          exact .inl ⟨_, hpool, hd⟩
        · intro ho
          refine ⟨(hsized ho).1, ?_⟩
          show (handles ++ [c]).length + todo.length ≤ o.poolSize
          have := (hsized ho).2
          rw [List.length_append, List.length_singleton]
          omega
      · cases h
        have hless : (handles ++ todo).Sublist (handles ++ c :: todo) :=
          (List.sublist_cons_self c todo).append_left handles
        refine ⟨?_, ?_, ?_, ?_⟩
        · rw [hkeeps]
          exact hless.subperm
        · intro who x hx
          cases who <;> cases hx
        · rintro protocol' d ⟨cs, hcs, hd⟩
          cases hcs
          exact .inl ⟨_, hpool, hless.subset hd⟩
        · intro ho
          refine ⟨(hsized ho).1, ?_⟩
          show handles.length + todo.length ≤ o.poolSize
          have := (hsized ho).2
          omega
  · cases h

theorem goes_spawnedAll {o o' : Opening} (h : o.spawnedAll = some o') : o.Goes o' none := by
  simp only [Opening.spawnedAll] at h
  split at h
  · next protocol handles lastError hpc =>
      have hpool : o.pool = some (protocol, handles ++ []) := by
        simp only [Opening.pool, hpc]
      have hkeeps : o.keeps = handles ++ [] := by
        simp only [Opening.keeps, hpc]
      split at h
      · cases h
        exact goes_failed _
      · next hne =>
          cases h
          refine ⟨?_, ?_, ?_, ?_⟩
          · rw [hkeeps, List.append_nil]
            exact List.Subperm.refl _
          · intro who x hx
            cases who <;> cases hx
          · rintro protocol' d ⟨cs, hcs, hd⟩
            cases hcs
            exact .inl ⟨_, hpool, by rwa [List.append_nil]⟩
          · rintro ⟨hpos, hfits⟩
            rw [hpc] at hfits
            exact ⟨hpos, hne, hfits⟩
  · cases h

theorem goes_abandon {o o' : Opening} (h : o.abandon = some o') :
    o.Goes o' none ∧ ∀ who, o'.flight who = none := by
  have hdropped : o.Goes { o with pc := .dropped, extras := [] } none ∧
      ∀ who, Opening.flight { o with pc := .dropped, extras := [] } who = none := by
    have hnone : ∀ who, Opening.flight { o with pc := .dropped, extras := [] } who = none :=
      fun who => by cases who <;> rfl
    refine ⟨⟨List.nil_subperm, fun who x hx => ?_, ?_, fun ho => ⟨ho.1, trivial⟩⟩, hnone⟩
    · rw [hnone who] at hx
      cases hx
    · rintro protocol c ⟨cs, hcs, -⟩
      cases hcs
  unfold Opening.abandon at h
  split at h
  · cases h
  · cases h
  · cases h
  · cases h
    exact hdropped

/-- What sending a request does: it is in flight, and nothing else changes. -/
structure Opening.Sends (o o' : Opening) (who : Who) (c : ConnId) (protocol : Subprotocol) :
    Prop where
  keeps : List.Perm o'.keeps o.keeps
  flights : ∀ w x, o'.flight w = some x →
    o.flight w = some x ∨ w = who ∧ x = (c, protocol, none)
  pools : ∀ p d, o'.Pools p d → o.Pools p d
  sized : o.Sized → o'.Sized

/-- The flights of the other tasks are not touched when one moves. -/
theorem flight_setExtra {o : Opening} {j : Nat} {x : ExtraPc} {w : Who}
    {z : ConnId × Subprotocol × Option Answer} (h : (o.setExtra j x).flight w = some z) :
    (w ≠ .extra j ∧ o.flight w = some z) ∨
      w = .extra j ∧ ∃ c answer, x = .inFlight c answer ∧ z.1 = c ∧ z.2.2 = answer ∧
        ∃ first succeeded, o.pc = .filling z.2.1 first succeeded := by
  cases w with
  | probe => exact .inl ⟨by simp, h⟩
  | extra k =>
      by_cases hk : k = j
      · subst hk
        right
        refine ⟨rfl, ?_⟩
        cases hpc : o.pc with
        | filling protocol first succeeded =>
            have hpc' : (o.setExtra k x).pc = .filling protocol first succeeded := hpc
            simp only [Opening.flight, hpc'] at h
            split at h
            · next c answer hx =>
                cases h
                simp only [Opening.setExtra, List.getElem?_set_self'] at hx
                cases hold : o.extras[k]? with
                | none =>
                    rw [hold] at hx
                    cases hx
                | some y =>
                    rw [hold] at hx
                    cases hx
                    exact ⟨c, answer, rfl, rfl, rfl, first, succeeded, rfl⟩
            · cases h
        | _ =>
            have hpc' : (o.setExtra k x).pc = o.pc := rfl
            rw [hpc] at hpc'
            simp only [Opening.flight, hpc'] at h
            cases h
      · left
        refine ⟨fun hw => hk (by cases hw; rfl), ?_⟩
        have hpc' : (o.setExtra j x).pc = o.pc := rfl
        have hother : (o.setExtra j x).extras[k]? = o.extras[k]? :=
          List.getElem?_set_ne (Ne.symm hk)
        simp only [Opening.flight, hpc', hother] at h ⊢
        exact h

theorem sends_of_send {o o' : Opening} {c : ConnId} {who : Who} {protocol : Subprotocol}
    (h : o.send c who = some (protocol, o')) : o.Sends o' who c protocol := by
  cases who with
  | probe =>
      simp only [Opening.send] at h
      split at h
      · next hpc =>
          cases h
          refine ⟨?_, ?_, ?_, fun ho => ⟨ho.1, trivial⟩⟩
          · simp only [Opening.keeps, hpc]
            exact .refl _
          · intro w x hx
            cases w with
            | probe =>
                cases hx
                exact .inr ⟨rfl, rfl⟩
            | extra j => cases hx
          · rintro p d ⟨cs, hcs, -⟩
            cases hcs
      · next wsError hpc =>
          cases h
          refine ⟨?_, ?_, ?_, fun ho => ⟨ho.1, trivial⟩⟩
          · simp only [Opening.keeps, hpc]
            exact .refl _
          · intro w x hx
            cases w with
            | probe =>
                cases hx
                exact .inr ⟨rfl, rfl⟩
            | extra j => cases hx
          · rintro p d ⟨cs, hcs, -⟩
            cases hcs
      · cases h
  | extra j =>
      simp only [Opening.send] at h
      split at h
      · next p first succeeded hpc =>
          split at h
          · next hx =>
              cases h
              have hpc' : (o.setExtra j (.inFlight c none)).pc = .filling protocol first succeeded :=
                hpc
              refine ⟨?_, ?_, ?_, sized_setExtra hx (by simp)⟩
              · obtain ⟨rest, hold, hnew⟩ :=
                  flatMap_set_perm ExtraPc.keeps hx (.inFlight c none)
                rw [keeps_filling hpc, keeps_filling hpc']
                exact (hnew.trans hold.symm).append_left _
              · intro w z hz
                rcases flight_setExtra hz with ⟨-, hold⟩ | ⟨hw, d, answer, hd, h1, h2, f, su, hp⟩
                · exact .inl hold
                · obtain ⟨z1, z2, z3⟩ := z
                  rw [hpc] at hp
                  cases hp
                  cases hd
                  cases h1
                  cases h2
                  exact .inr ⟨hw, rfl⟩
              · intro p d hd
                rw [pools_filling hpc'] at hd
                rw [pools_filling hpc]
                refine ⟨hd.1, hd.2.imp_right fun hin => ?_⟩
                obtain ⟨rest, hold, hnew⟩ :=
                  flatMap_set_perm ExtraPc.got hx (.inFlight c none)
                exact hold.symm.subset (hnew.subset hin)
          · cases h
      · cases h

/-- What the arrival of an answer does: the connection is given to the call or not. -/
structure Opening.Arrives (o o' : Opening) (who : Who) (c : ConnId) (protocol : Subprotocol)
    (a : Answer) : Prop where
  keeps : List.Perm o'.keeps (kept c (some a) ++ o.keeps)
  waited : o.flight who = some (c, protocol, none)
  flights : ∀ w x, o'.flight w = some x →
    (w ≠ who ∧ o.flight w = some x) ∨ w = who ∧ x = (c, protocol, some a)
  pools : ∀ p d, o'.Pools p d → o.Pools p d
  sized : o.Sized → o'.Sized

theorem arrives_of_arrive {o o' : Opening} {a : Answer} {who : Who} {c : ConnId}
    {protocol : Subprotocol} (h : o.arrive a who = some (c, protocol, o')) :
    o.Arrives o' who c protocol a := by
  cases who with
  | probe =>
      simp only [Opening.arrive] at h
      split at h
      · next d hpc =>
          cases h
          refine ⟨?_, by simp only [Opening.flight, hpc], ?_, ?_, fun ho => ⟨ho.1, trivial⟩⟩
          · simp only [Opening.keeps, hpc, kept, List.append_nil]
            exact .refl _
          · intro w x hx
            cases w with
            | probe =>
                cases hx
                exact .inr ⟨rfl, rfl⟩
            | extra j => cases hx
          · rintro p d ⟨cs, hcs, -⟩
            cases hcs
      · next wsError d hpc =>
          cases h
          refine ⟨?_, by simp only [Opening.flight, hpc], ?_, ?_, fun ho => ⟨ho.1, trivial⟩⟩
          · simp only [Opening.keeps, hpc, kept, List.append_nil]
            exact .refl _
          · intro w x hx
            cases w with
            | probe =>
                cases hx
                exact .inr ⟨rfl, rfl⟩
            | extra j => cases hx
          · rintro p d ⟨cs, hcs, -⟩
            cases hcs
      · cases h
  | extra j =>
      simp only [Opening.arrive] at h
      split at h
      · next p first succeeded hpc =>
          split at h
          · next d hx =>
              cases h
              have hpc' : (o.setExtra j (.inFlight c (some a))).pc =
                  .filling protocol first succeeded := hpc
              refine ⟨?_, by simp only [Opening.flight, hpc, hx], ?_, ?_,
                sized_setExtra hx (by simp)⟩
              · obtain ⟨rest, hold, hnew⟩ :=
                  flatMap_set_perm ExtraPc.keeps hx (.inFlight c (some a))
                have hold : (o.extras.flatMap ExtraPc.keeps).Perm rest := hold
                rw [keeps_filling hpc, keeps_filling hpc']
                refine (hnew.append_left _).trans ?_
                refine List.Perm.trans ?_ ((hold.symm.append_left _).append_left _)
                exact List.perm_append_comm_assoc _ _ _
              · intro w z hz
                rcases flight_setExtra hz with hold | ⟨hw, d, answer, hd, h1, h2, f, su, hp⟩
                · exact .inl hold
                · obtain ⟨z1, z2, z3⟩ := z
                  rw [hpc] at hp
                  cases hp
                  cases hd
                  cases h1
                  cases h2
                  exact .inr ⟨hw, rfl⟩
              · intro p d hd
                rw [pools_filling hpc'] at hd
                rw [pools_filling hpc]
                refine ⟨hd.1, hd.2.imp_right fun hin => ?_⟩
                obtain ⟨rest, hold, hnew⟩ :=
                  flatMap_set_perm ExtraPc.got hx (.inFlight c (some a))
                exact hold.symm.subset (hnew.subset hin)
          · cases h
      · cases h

/-! ## What a step does to the connections -/

/-- Only an upgrade that `lost` is about ends such a use. -/
def ConnUse.Bound (lost : Upgrade → Prop) : ConnUse → Prop
  | .upgrading u => ¬ lost u
  | .switched _ => True
  | .gone => True
  | _ => False

/-- The connection of a request in flight, before and after the answer. -/
def ConnUse.Fits (use : ConnUse) (u : Upgrade) : Option Answer → Prop
  | none => use = .upgrading u
  | some (.failed _) => use = .gone
  | some (.response res _) => res.status = SWITCHING_PROTOCOLS → use = .switched u

structure Upholds (lost : Upgrade → Prop) (s s' : State) : Prop where
  length : s.conns.length ≤ s'.conns.length
  use : ∀ (c : ConnId) x, s.conns[c]? = some x → x.use.Bound lost →
    ∃ x', s'.conns[c]? = some x' ∧ x'.use = x.use

theorem upholds_of_conns {lost : Upgrade → Prop} {s s' : State} (h : s'.conns = s.conns) :
    Upholds lost s s' where
  length := Nat.le_of_eq (congrArg List.length h).symm
  use := by
    intro c x hx _
    rw [h]
    exact ⟨x, hx, rfl⟩

theorem Upholds.trans {lost : Upgrade → Prop} {s s' s'' : State} (h : Upholds lost s s')
    (h' : Upholds lost s' s'') : Upholds lost s s'' where
  length := Nat.le_trans h.length h'.length
  use := by
    intro c x hx hbound
    obtain ⟨x', hx', huse⟩ := h.use c x hx hbound
    obtain ⟨x'', hx'', huse'⟩ := h'.use c x' hx' (huse ▸ hbound)
    exact ⟨x'', hx'', huse'.trans huse⟩

theorem Upholds.of_conns {lost : Upgrade → Prop} {s s' s'' : State} (h : Upholds lost s s')
    (hconns : s''.conns = s'.conns) : Upholds lost s s'' := h.trans (upholds_of_conns hconns)

theorem setUse_getElem? (s : State) (c d : ConnId) (use : ConnUse) :
    (s.setUse c use).conns[d]? =
      (s.conns[d]?).map fun x => if c = d then { x with use := use } else x :=
  List.getElem?_modify ..

theorem setUse_other {s : State} {c d : ConnId} (use : ConnUse) (h : c ≠ d) :
    (s.setUse c use).conns[d]? = s.conns[d]? := by
  rw [setUse_getElem?]
  simp [h]

theorem setUse_self {s : State} {c : ConnId} {x : Conn} (use : ConnUse)
    (h : s.conns[c]? = some x) : (s.setUse c use).conns[c]? = some { x with use := use } := by
  rw [setUse_getElem?, h]
  simp

@[simp] theorem length_setUse (s : State) (c : ConnId) (use : ConnUse) :
    (s.setUse c use).conns.length = s.conns.length := List.length_modify ..

theorem upholds_setUse {lost : Upgrade → Prop} {s : State} {c : ConnId} {use : ConnUse}
    (h : ∀ x, s.conns[c]? = some x → ¬ x.use.Bound lost) : Upholds lost s (s.setUse c use) where
  length := Nat.le_of_eq (length_setUse s c use).symm
  use := by
    intro d x hx hbound
    by_cases hd : c = d
    · subst hd
      exact absurd hbound (h x hx)
    · exact ⟨x, (setUse_other use hd).trans hx, rfl⟩

theorem poison_getElem? (s : State) (c d : ConnId) :
    (s.poisonRejectedUpgrade (some c)).conns[d]? =
      (s.conns[d]?).map fun x => if c = d then { x with poisoned := true } else x :=
  List.getElem?_modify ..

/-- A call poisons the connection of an answer that rejects its upgrade, and no other. -/
theorem settle_cases (s : State) (c : ConnId) (a : Answer) :
    (s.settle c a = s ∧ ∀ res upgraded, a = .response res upgraded →
        res.status = SWITCHING_PROTOCOLS) ∨
      s.settle c a = s.poisonRejectedUpgrade (some c) := by
  cases a with
  | failed message => exact .inl ⟨rfl, fun res upgraded h => by cases h⟩
  | response res upgraded =>
      by_cases hstatus : res.status ≠ SWITCHING_PROTOCOLS
      · exact .inr (if_pos hstatus)
      · refine .inl ⟨if_neg hstatus, ?_⟩
        intro res' upgraded' h
        cases h
        exact not_not.mp hstatus

/-- Acting on an answer leaves every connection in its use. -/
theorem settle_use (s : State) (c d : ConnId) (a : Answer) :
    ((s.settle c a).conns[d]?).map Conn.use = (s.conns[d]?).map Conn.use := by
  rcases settle_cases s c a with ⟨h, -⟩ | h
  · rw [h]
  · rw [h, poison_getElem?, Option.map_map]
    congr 1
    funext x
    simp only [Function.comp_apply]
    split <;> rfl

theorem length_settle (s : State) (c : ConnId) (a : Answer) :
    (s.settle c a).conns.length = s.conns.length := by
  rcases settle_cases s c a with ⟨h, -⟩ | h
  · rw [h]
  · rw [h]
    exact List.length_modify ..

theorem settle_rest (s : State) (c : ConnId) (a : Answer) :
    (s.settle c a).opens = s.opens ∧ (s.settle c a).log = s.log := by
  rcases settle_cases s c a with ⟨h, -⟩ | h
  · rw [h]
    exact ⟨rfl, rfl⟩
  · rw [h]
    exact ⟨rfl, rfl⟩

theorem upholds_settle (lost : Upgrade → Prop) (s : State) (c : ConnId) (a : Answer) :
    Upholds lost s (s.settle c a) where
  length := Nat.le_of_eq (length_settle s c a).symm
  use := by
    intro d x hx _
    have huse := settle_use s c d a
    rw [hx] at huse
    exact Option.map_eq_some_iff.mp huse

theorem giveUp_getElem? (s : State) (whose : Upgrade → Bool) (c : ConnId) :
    (s.giveUp whose).conns[c]? = (s.conns[c]?).map fun x =>
      match x.use with
      | .upgrading u => if whose u then { x with use := .gone } else x
      | _ => x := List.getElem?_map

theorem upholds_giveUp (s : State) (whose : Upgrade → Bool) :
    Upholds (fun u => whose u = true) s (s.giveUp whose) where
  length := by simp [State.giveUp]
  use := by
    intro c x hx hbound
    rw [giveUp_getElem?, hx]
    obtain ⟨use, poisoned⟩ := x
    cases use with
    | upgrading u =>
        refine ⟨⟨.upgrading u, poisoned⟩, ?_, rfl⟩
        have hnot : ¬ whose u = true := hbound
        simp [hnot]
    | switched u => exact ⟨_, rfl, rfl⟩
    | gone => exact ⟨_, rfl, rfl⟩
    | idle => exact absurd hbound id
    | serving => exact absurd hbound id
    | answered => exact absurd hbound id

/-- The connection taken for a request is new, or was idle and not poisoned; then it is
idle and not poisoned, and the others are as they were. -/
structure Takes (s s' : State) (c : ConnId) : Prop where
  found : c = s.conns.length ∨ s.conns[c]? = some ⟨.idle, false⟩
  opens : s'.opens = s.opens
  log : s'.log = s.log
  length : s.conns.length ≤ s'.conns.length
  self : s'.conns[c]? = some ⟨.idle, false⟩
  others : ∀ d : ConnId, d ≠ c → s'.conns[d]? = s.conns[d]?

theorem takes_of_take {s s' : State} {conn : Option ConnId} {c : ConnId}
    (h : s.take conn = some (c, s')) : Takes s s' c := by
  cases conn with
  | none =>
      cases h
      refine ⟨.inl rfl, rfl, rfl, by simp, by simp, ?_⟩
      intro d hd
      show (s.conns ++ [_])[d]? = _
      rw [List.getElem?_append]
      split
      · rfl
      · next hge =>
          have hlt : 1 ≤ d - s.conns.length :=
            Nat.sub_pos_of_lt (Nat.lt_of_le_of_ne (Nat.le_of_not_lt hge) (Ne.symm hd))
          rw [List.getElem?_eq_none (Nat.le_of_not_lt hge), List.getElem?_eq_none hlt]
  | some e =>
      simp only [State.take] at h
      split at h
      · next hidle =>
          cases h
          exact ⟨.inr hidle, rfl, rfl, Nat.le_refl _, hidle, fun _ _ => rfl⟩
      · cases h

theorem Takes.upholds {s s' : State} {c : ConnId} (h : Takes s s' c) (lost : Upgrade → Prop)
    (use : ConnUse) : Upholds lost s (s'.setUse c use) where
  length := by
    rw [length_setUse]
    exact h.length
  use := by
    intro d x hx hbound
    by_cases hd : d = c
    · subst hd
      rcases h.found with rfl | hidle
      · have := (List.getElem?_eq_some_iff.mp hx).1
        omega
      · rw [hidle] at hx
        cases hx
        exact absurd hbound id
    · refine ⟨x, ?_, rfl⟩
      rw [setUse_other use (Ne.symm hd), h.others d hd]
      exact hx

/-- The connection that an answer arrives over: to whom it belongs then. -/
theorem handBack_eq (s : State) (c : ConnId) (u : Upgrade) (a : Answer) :
    ∃ use, s.handBack c u a = s.setUse c use ∧ use.Fits u (some a) ∧
      ((use = .answered ∧ ∃ res upgraded, a = .response res upgraded ∧
        res.status ≠ SWITCHING_PROTOCOLS) ∨ use = .gone ∨ use = .switched u) := by
  cases a with
  | failed message => exact ⟨.gone, rfl, rfl, .inr (.inl rfl)⟩
  | response res upgraded =>
      by_cases hstatus : res.status ≠ SWITCHING_PROTOCOLS
      · refine ⟨.answered, if_pos hstatus, fun h => absurd h hstatus, ?_⟩
        exact .inl ⟨rfl, res, upgraded, rfl, hstatus⟩
      · exact ⟨.switched u, if_neg hstatus, fun _ => rfl, .inr (.inr rfl)⟩

theorem handBack_rest (s : State) (c : ConnId) (u : Upgrade) (a : Answer) :
    (s.handBack c u a).opens = s.opens ∧ (s.handBack c u a).log = s.log := by
  obtain ⟨use, hback, -⟩ := handBack_eq s c u a
  rw [hback]
  exact ⟨rfl, rfl⟩

/-- Whose use it was stays so, unless the step is about this very upgrade. -/
theorem Upholds.fits {lost : Upgrade → Prop} {s s' : State} (h : Upholds lost s s')
    {c : ConnId} {u : Upgrade} {answer : Option Answer} (hlost : answer = none → ¬ lost u)
    (hfits : ∃ x, s.conns[c]? = some x ∧ x.use.Fits u answer) :
    ∃ x, s'.conns[c]? = some x ∧ x.use.Fits u answer := by
  obtain ⟨x, hx, hx'⟩ := hfits
  cases answer with
  | none =>
      have huse : x.use = .upgrading u := hx'
      obtain ⟨x', hfound, hsame⟩ := h.use c x hx (by rw [huse]; exact hlost rfl)
      exact ⟨x', hfound, hsame.trans huse⟩
  | some a =>
      cases a with
      | failed message =>
          have huse : x.use = .gone := hx'
          obtain ⟨x', hfound, hsame⟩ := h.use c x hx (by rw [huse]; trivial)
          exact ⟨x', hfound, hsame.trans huse⟩
      | response res upgraded =>
          by_cases hstatus : res.status = SWITCHING_PROTOCOLS
          · have huse := hx' hstatus
            obtain ⟨x', hfound, hsame⟩ := h.use c x hx (by rw [huse]; trivial)
            exact ⟨x', hfound, fun _ => hsame.trans huse⟩
          · have hlt := Nat.lt_of_lt_of_le (List.getElem?_eq_some_iff.mp hx).1 h.length
            exact ⟨_, List.getElem?_eq_getElem hlt, fun hs => absurd hs hstatus⟩

/-! ## Who owns a connection -/

/-- The apiserver accepted `protocol` from opening `i` on the connection `c`. -/
def Accepted (log : List Event) (i : OpenId) (c : ConnId) (protocol : Subprotocol) : Prop :=
  ∃ who a, .answered c ⟨i, who, protocol⟩ a ∈ log ∧ protocol.perform a = .ok ()

structure Owned (s : State) : Prop where
  nodup : ∀ (i : OpenId) o, s.opens[i]? = some o → o.keeps.Nodup
  mine : ∀ (i : OpenId) o c, s.opens[i]? = some o → c ∈ o.keeps →
    ∃ x u, s.conns[c]? = some x ∧ x.use = .switched u ∧ u.opening = i
  flights : ∀ (i : OpenId) o who c protocol answer, s.opens[i]? = some o →
    o.flight who = some (c, protocol, answer) →
      ∃ x, s.conns[c]? = some x ∧ x.use.Fits ⟨i, who, protocol⟩ answer
  accepted : ∀ (i : OpenId) o protocol c, s.opens[i]? = some o → o.Pools protocol c →
    Accepted s.log i c protocol
  sized : ∀ (i : OpenId) o, s.opens[i]? = some o → o.Sized

theorem Accepted.append {log : List Event} {i : OpenId} {c : ConnId} {protocol : Subprotocol}
    (h : Accepted log i c protocol) (more : List Event) : Accepted (log ++ more) i c protocol := by
  obtain ⟨who, a, hin, hok⟩ := h
  exact ⟨who, a, List.mem_append_left _ hin, hok⟩

/-- The openings stand still. -/
theorem Owned.mono {s s' : State} {more : List Event} (hs : Owned s)
    (hopens : s'.opens = s.opens) (hlog : s'.log = s.log ++ more)
    (hup : Upholds (fun _ => False) s s') : Owned s' := by
  refine ⟨?_, ?_, ?_, ?_, ?_⟩
  · rw [hopens]
    exact hs.nodup
  · rw [hopens]
    intro i o c ho hc
    obtain ⟨x, u, hx, huse, hu⟩ := hs.mine i o c ho hc
    obtain ⟨x', hx', hsame⟩ := hup.use c x hx (by rw [huse]; trivial)
    exact ⟨x', u, hx', hsame.trans huse, hu⟩
  · rw [hopens]
    intro i o who c protocol answer ho hflight
    exact hup.fits (fun _ => id) (hs.flights i o who c protocol answer ho hflight)
  · rw [hopens, hlog]
    intro i o protocol c ho hc
    exact (hs.accepted i o protocol c ho hc).append more
  · rw [hopens]
    exact hs.sized

/-- One opening moves on and the others stand still. -/
theorem Owned.set {s s' : State} {lost : Upgrade → Prop} {i : OpenId} {o' : Opening}
    {more : List Event} (hs : Owned s) (hopens : s'.opens = s.opens.set i o')
    (hlog : s'.log = s.log ++ more) (hup : Upholds lost s s')
    (hlost : ∀ u, lost u → u.opening = i) (hnodup : o'.keeps.Nodup)
    (hmine : ∀ c ∈ o'.keeps, ∃ x u, s'.conns[c]? = some x ∧ x.use = .switched u ∧
      u.opening = i)
    (hflights : ∀ who c protocol answer, o'.flight who = some (c, protocol, answer) →
      ∃ x, s'.conns[c]? = some x ∧ x.use.Fits ⟨i, who, protocol⟩ answer)
    (haccepted : ∀ protocol c, o'.Pools protocol c → Accepted s'.log i c protocol)
    (hsized : o'.Sized) : Owned s' := by
  have hcases : ∀ (k : OpenId) o, s'.opens[k]? = some o →
      (k = i ∧ o = o') ∨ (k ≠ i ∧ s.opens[k]? = some o) := by
    intro k o ho
    rw [hopens, List.getElem?_set] at ho
    split at ho
    · next hk =>
        split at ho
        · cases ho
          exact .inl ⟨hk.symm, rfl⟩
        · cases ho
    · next hk => exact .inr ⟨Ne.symm hk, ho⟩
  refine ⟨?_, ?_, ?_, ?_, ?_⟩
  · intro k o ho
    rcases hcases k o ho with ⟨rfl, rfl⟩ | ⟨-, ho⟩
    · exact hnodup
    · exact hs.nodup k o ho
  · intro k o c ho hc
    rcases hcases k o ho with ⟨rfl, rfl⟩ | ⟨-, ho⟩
    · exact hmine c hc
    · obtain ⟨x, u, hx, huse, hu⟩ := hs.mine k o c ho hc
      obtain ⟨x', hx', hsame⟩ := hup.use c x hx (by rw [huse]; trivial)
      exact ⟨x', u, hx', hsame.trans huse, hu⟩
  · intro k o who c protocol answer ho hflight
    rcases hcases k o ho with ⟨rfl, rfl⟩ | ⟨hk, ho⟩
    · exact hflights who c protocol answer hflight
    · exact hup.fits (fun _ h => hk (hlost _ h)) (hs.flights k o who c protocol answer ho hflight)
  · intro k o protocol c ho hc
    rcases hcases k o ho with ⟨rfl, rfl⟩ | ⟨-, ho⟩
    · exact haccepted protocol c hc
    · rw [hlog]
      exact (hs.accepted k o protocol c ho hc).append more
  · intro k o ho
    rcases hcases k o ho with ⟨rfl, rfl⟩ | ⟨-, ho⟩
    · exact hsized
    · exact hs.sized k o ho

/-- An opening moves on without a request or an answer on the wire. -/
theorem Owned.goes {s s' : State} {lost : Upgrade → Prop} {i : OpenId} {o o' : Opening}
    {more : List Event} {new : Option (Subprotocol × ConnId)} (hs : Owned s)
    (ho : s.opens[i]? = some o) (hgoes : o.Goes o' new) (hopens : s'.opens = s.opens.set i o')
    (hlog : s'.log = s.log ++ more) (hup : Upholds lost s s')
    (hlost : ∀ u, lost u → u.opening = i)
    (hquits : ∀ who c protocol, o'.flight who = some (c, protocol, none) →
      ¬ lost ⟨i, who, protocol⟩)
    (hnew : ∀ protocol c, new = some (protocol, c) → Accepted s'.log i c protocol) :
    Owned s' := by
  refine hs.set hopens hlog hup hlost ?_ ?_ ?_ ?_ (hgoes.sized (hs.sized i o ho))
  · rw [List.nodup_iff_count_le_one]
    intro c
    exact Nat.le_trans (hgoes.keeps.count_le c)
      (List.nodup_iff_count_le_one.mp (hs.nodup i o ho) c)
  · intro c hc
    obtain ⟨x, u, hx, huse, hu⟩ := hs.mine i o c ho (hgoes.keeps.subset hc)
    obtain ⟨x', hx', hsame⟩ := hup.use c x hx (by rw [huse]; trivial)
    exact ⟨x', u, hx', hsame.trans huse, hu⟩
  · intro who c protocol answer hflight
    refine hup.fits ?_ (hs.flights i o who c protocol answer ho (hgoes.flights who _ hflight))
    rintro rfl
    exact hquits who c protocol hflight
  · intro protocol c hc
    rcases hgoes.pools protocol c hc with hold | hfresh
    · rw [hlog]
      exact (hs.accepted i o protocol c ho hold).append more
    · exact hnew protocol c hfresh

/-- The step of an opening that moves on by itself. -/
theorem Owned.advance {s s' : State} {i : OpenId} {move : Opening → Option Opening}
    (hs : Owned s) (hmove : ∀ o o', move o = some o' → o.Goes o' none)
    (h : s.advance i move = some s') : Owned s' := by
  unfold State.advance at h
  split at h
  · next o ho =>
      rw [Option.map_eq_some_iff] at h
      obtain ⟨o', hmoved, rfl⟩ := h
      have hup : Upholds (fun _ => False) s (s.setOpening i o') := upholds_of_conns rfl
      exact hs.goes ho (hmove o o' hmoved) rfl (List.append_nil _).symm hup
        (fun _ h => h.elim) (fun _ _ _ _ => id) fun _ _ hnew => by cases hnew
  · cases h

/-- The step of an opening that gives up requests of its own. -/
theorem Owned.quits {s s' : State} {i : OpenId} {move : Opening → Option Opening}
    {whose : Upgrade → Bool} (hs : Owned s)
    (hwhose : ∀ u, whose u = true → u.opening = i)
    (hmove : ∀ o o', move o = some o' → o.Goes o' none ∧ ∀ who c protocol,
      o'.flight who = some (c, protocol, none) → ¬ whose ⟨i, who, protocol⟩ = true)
    (h : (s.advance i move).map (fun s' => s'.giveUp whose) = some s') : Owned s' := by
  unfold State.advance at h
  split at h
  · next o ho =>
      simp only [Option.map_map, Option.map_eq_some_iff, Function.comp_apply] at h
      obtain ⟨o', hmoved, rfl⟩ := h
      obtain ⟨hgoes, hquits⟩ := hmove o o' hmoved
      refine hs.goes ho hgoes rfl (List.append_nil _).symm ?_ hwhose hquits
        fun _ _ hnew => by cases hnew
      have hsame : Upholds (fun u => whose u = true) s (s.setOpening i o') :=
        upholds_of_conns rfl
      exact hsame.trans (upholds_giveUp (s.setOpening i o') whose)
  · cases h

/-- Where a call stands when it has just begun. -/
theorem start_pc (cluster : Cluster) (b : SessionBuilder) :
    (Opening.start cluster b).pc = .probe ∨
      ∃ e, portforwardUri cluster b.ns b.pod = .error e ∧
        (Opening.start cluster b).pc = .failed (.upgrade e) := by
  unfold Opening.start
  cases huri : portforwardUri cluster b.ns b.pod with
  | ok uri => exact .inl rfl
  | error e => exact .inr ⟨e, rfl, rfl⟩

/-- A call that has just begun has nothing. -/
theorem start_empty (cluster : Cluster) (b : SessionBuilder) :
    (Opening.start cluster b).keeps = [] ∧ (Opening.start cluster b).pool = none ∧
      (∀ who, (Opening.start cluster b).flight who = none) ∧
      (Opening.start cluster b).Sized := by
  have hempty : ∀ pc : Pc, pc = .probe ∨ (∃ e, pc = .failed e) →
      Opening.keeps ⟨b.poolSize, pc, []⟩ = [] ∧ Opening.pool ⟨b.poolSize, pc, []⟩ = none ∧
        (∀ who, Opening.flight ⟨b.poolSize, pc, []⟩ who = none) ∧
        Opening.Sized ⟨b.poolSize, pc, []⟩ := by
    rintro pc (rfl | ⟨e, rfl⟩)
    · exact ⟨rfl, rfl, fun who => by cases who <;> rfl, b.poolSize_pos, trivial⟩
    · exact ⟨rfl, rfl, fun who => by cases who <;> rfl, b.poolSize_pos, trivial⟩
  apply hempty
  rcases start_pc cluster b with hpc | ⟨e, -, hpc⟩
  · exact .inl hpc
  · exact .inr ⟨_, hpc⟩

theorem owned_openSession {cluster : Cluster} {s : State} (hs : Owned s) (b : SessionBuilder) :
    Owned { s with opens := s.opens ++ [.start cluster b] } := by
  obtain ⟨hkeeps, hpool, hflight, hsized⟩ := start_empty cluster b
  have hcases : ∀ (k : OpenId) o, (s.opens ++ [Opening.start cluster b])[k]? = some o →
      s.opens[k]? = some o ∨ o = .start cluster b := by
    intro k o ho
    rw [List.getElem?_append] at ho
    split at ho
    · exact .inl ho
    · exact .inr (List.mem_singleton.mp (List.mem_of_getElem? ho))
  refine ⟨?_, ?_, ?_, ?_, ?_⟩
  · intro k o ho
    rcases hcases k o ho with ho | rfl
    · exact hs.nodup k o ho
    · rw [hkeeps]
      exact List.nodup_nil
  · intro k o c ho hc
    rcases hcases k o ho with ho | rfl
    · exact hs.mine k o c ho hc
    · rw [hkeeps] at hc
      cases hc
  · intro k o who c protocol answer ho hout
    rcases hcases k o ho with ho | rfl
    · exact hs.flights k o who c protocol answer ho hout
    · rw [hflight who] at hout
      cases hout
  · intro k o protocol c ho hc
    rcases hcases k o ho with ho | rfl
    · exact hs.accepted k o protocol c ho hc
    · obtain ⟨cs, hcs, -⟩ := hc
      rw [hpool] at hcs
      cases hcs
  · intro k o ho
    rcases hcases k o ho with ho | rfl
    · exact hs.sized k o ho
    · exact hsized

/-- A request goes out: its connection was nobody's. -/
theorem owned_send {s s₁ : State} {i : OpenId} {o o' : Opening} {c : ConnId} {who : Who}
    {protocol : Subprotocol} (hs : Owned s) (ho : s.opens[i]? = some o)
    (htakes : Takes s s₁ c) (hsend : o.send c who = some (protocol, o')) :
    Owned (((s₁.setUse c (.upgrading ⟨i, who, protocol⟩)).setOpening i o').record
      [.sent c (some ⟨i, who, protocol⟩)]) := by
  obtain ⟨hkeeps, hflights, hpools, hsized⟩ := sends_of_send hsend
  have hup := htakes.upholds (fun _ => False) (.upgrading ⟨i, who, protocol⟩)
  have hsent : ∃ x, (s₁.setUse c (.upgrading ⟨i, who, protocol⟩)).conns[c]? = some x ∧
      x.use = .upgrading ⟨i, who, protocol⟩ := ⟨_, setUse_self _ htakes.self, rfl⟩
  have hopens : s₁.opens.set i o' = s.opens.set i o' := by rw [htakes.opens]
  have hlog : s₁.log ++ [.sent c (some ⟨i, who, protocol⟩)] =
      s.log ++ [.sent c (some ⟨i, who, protocol⟩)] := by rw [htakes.log]
  refine hs.set hopens hlog (hup.of_conns rfl) (fun _ h => h.elim) ?_ ?_ ?_ ?_
    (hsized (hs.sized i o ho))
  · rw [hkeeps.nodup_iff]
    exact hs.nodup i o ho
  · intro d hd
    obtain ⟨x, u, hx, huse, hu⟩ := hs.mine i o d ho (hkeeps.subset hd)
    obtain ⟨x', hx', hsame⟩ := hup.use d x hx (by rw [huse]; trivial)
    exact ⟨x', u, hx', hsame.trans huse, hu⟩
  · intro w d p answer hout
    rcases hflights w _ hout with hold | ⟨rfl, hnew⟩
    · exact hup.fits (fun _ => id) (hs.flights i o w d p answer ho hold)
    · cases hnew
      exact hsent
  · intro p d hd
    show Accepted (s₁.log ++ _) i d p
    rw [hlog]
    exact (hs.accepted i o p d ho (hpools p d hd)).append _

/-- An answer arrives: the connection is the call's now, or is given back. -/
theorem owned_arrive {s : State} {i : OpenId} {o o' : Opening} {c : ConnId} {who : Who}
    {protocol : Subprotocol} {a : Answer} (hs : Owned s) (ho : s.opens[i]? = some o)
    (harrive : o.arrive a who = some (c, protocol, o')) :
    Owned (((s.handBack c ⟨i, who, protocol⟩ a).setOpening i o').record
      [.arrived c ⟨i, who, protocol⟩ a]) := by
  obtain ⟨hkeeps, hwaited, hflights, hpools, hsized⟩ := arrives_of_arrive harrive
  obtain ⟨use, hback, hfits, -⟩ := handBack_eq s c ⟨i, who, protocol⟩ a
  obtain ⟨x, hx, hwaits⟩ := hs.flights i o who c protocol none ho hwaited
  have hwaits : x.use = .upgrading ⟨i, who, protocol⟩ := hwaits
  have hup : Upholds (fun u => u = ⟨i, who, protocol⟩) s
      (s.handBack c ⟨i, who, protocol⟩ a) := by
    rw [hback]
    apply upholds_setUse
    intro y hy hbound
    rw [hx] at hy
    cases hy
    rw [hwaits] at hbound
    exact hbound rfl
  have hself : (s.handBack c ⟨i, who, protocol⟩ a).conns[c]? = some { x with use := use } := by
    rw [hback]
    exact setUse_self use hx
  obtain ⟨hsameOpens, hsameLog⟩ := handBack_rest s c ⟨i, who, protocol⟩ a
  have hopens : (s.handBack c ⟨i, who, protocol⟩ a).opens.set i o' = s.opens.set i o' := by
    rw [hsameOpens]
  have hlog : (s.handBack c ⟨i, who, protocol⟩ a).log ++ [.arrived c ⟨i, who, protocol⟩ a] =
      s.log ++ [.arrived c ⟨i, who, protocol⟩ a] := by rw [hsameLog]
  refine hs.set hopens hlog (hup.of_conns rfl) (fun u hu => by rw [hu]) ?_ ?_ ?_ ?_
    (hsized (hs.sized i o ho))
  · rw [hkeeps.nodup_iff, kept]
    split
    · -- What the opening has been given is switched already, so this one is new to it.
      refine List.nodup_cons.mpr ⟨fun hin => ?_, hs.nodup i o ho⟩
      obtain ⟨y, u, hy, huse, -⟩ := hs.mine i o c ho hin
      rw [hx] at hy
      cases hy
      rw [hwaits] at huse
      cases huse
    · exact hs.nodup i o ho
  · intro d hd
    rcases List.mem_append.mp (hkeeps.subset hd) with hnew | hold
    · simp only [kept] at hnew
      split at hnew
      · next hswitches =>
          rw [List.mem_singleton.mp hnew]
          refine ⟨_, ⟨i, who, protocol⟩, hself, ?_, rfl⟩
          cases a with
          | failed message => cases hswitches
          | response res upgraded => exact hfits (beq_iff_eq.mp hswitches)
      · cases hnew
    · obtain ⟨y, u, hy, huse, hu⟩ := hs.mine i o d ho hold
      obtain ⟨y', hy', hsame⟩ := hup.use d y hy (by rw [huse]; trivial)
      exact ⟨y', u, hy', hsame.trans huse, hu⟩
  · intro w d p answer hout
    rcases hflights w _ hout with ⟨hw, hold⟩ | ⟨rfl, hnew⟩
    · refine hup.fits (fun _ heq => hw ?_) (hs.flights i o w d p answer ho hold)
      exact congrArg Upgrade.who heq
    · cases hnew
      exact ⟨_, hself, hfits⟩
  · intro p d hd
    show Accepted ((s.handBack c ⟨i, who, protocol⟩ a).log ++ _) i d p
    rw [hlog]
    exact (hs.accepted i o p d ho (hpools p d hd)).append _

/-- The call acts on an answer: only what it accepted joins the pool. -/
theorem owned_answer {s : State} {i : OpenId} {o o' : Opening} {c : ConnId} {who : Who}
    {protocol : Subprotocol} {a : Answer} {signal : Option RecoverySignal} (hs : Owned s)
    (ho : s.opens[i]? = some o) (hanswer : o.answer who = some (c, protocol, a, o', signal)) :
    Owned (((s.settle c a).setOpening i o').record
      (.answered c ⟨i, who, protocol⟩ a :: signals i signal)) := by
  have hrest := settle_rest s c a
  have hup := upholds_settle (fun _ => False) s c a
  have hlog : (((s.settle c a).setOpening i o').record
      (.answered c ⟨i, who, protocol⟩ a :: signals i signal)).log =
        s.log ++ (.answered c ⟨i, who, protocol⟩ a :: signals i signal) := by
    show (s.settle c a).log ++ _ = _
    rw [hrest.2]
  refine hs.goes ho (goes_answer hanswer).1 ?_ hlog (hup.of_conns rfl) (fun _ h => h.elim)
    (fun _ _ _ _ => id) ?_
  · show (s.settle c a).opens.set i o' = _
    rw [hrest.1]
  · intro p d hnew
    rw [hlog]
    unfold pooledBy at hnew
    split at hnew
    · next hok =>
        cases hnew
        exact ⟨who, a, List.mem_append_right _ List.mem_cons_self, hok⟩
    · cases hnew

/-- The client takes a connection back or closes it, or another request is done. -/
theorem owned_setUse {s : State} {c : ConnId} {old use : ConnUse} (hs : Owned s)
    (hold : (s.conns[c]?).map Conn.use = some old) (hfree : ¬ old.Bound fun _ => False) :
    Owned (s.setUse c use) := by
  refine hs.mono rfl (List.append_nil _).symm (upholds_setUse fun x hx hbound => ?_)
  rw [hx] at hold
  cases hold
  exact hfree hbound

theorem owned_invariant (cluster : Cluster) : (negotiation cluster).Invariant anyStep Owned := by
  refine Invariant.of_step ?_ ?_
  · constructor <;> simp [negotiation]
  intro s a s' hs _ h
  replace h : step cluster s a = some s' := h
  cases a with
  | openSession b =>
      cases h
      exact owned_openSession hs b
  | send i who conn =>
      simp only [step] at h
      split at h
      · next o c s₁ ho htake =>
          rw [Option.map_eq_some_iff] at h
          obtain ⟨⟨protocol, o'⟩, hsend, rfl⟩ := h
          exact owned_send hs ho (takes_of_take htake) hsend
      · cases h
  | arrive i who a =>
      simp only [step] at h
      split at h
      · next o ho =>
          rw [Option.map_eq_some_iff] at h
          obtain ⟨⟨c, protocol, o'⟩, harrive, rfl⟩ := h
          exact owned_arrive hs ho harrive
      · cases h
  | answer i who =>
      simp only [step] at h
      split at h
      · next o ho =>
          rw [Option.map_eq_some_iff] at h
          obtain ⟨⟨c, protocol, a, o', signal⟩, hanswer, rfl⟩ := h
          exact owned_answer hs ho hanswer
      · cases h
  | unsent i who message =>
      simp only [step] at h
      split at h
      · next o ho =>
          rw [Option.map_eq_some_iff] at h
          obtain ⟨⟨o', signal⟩, hunsent, rfl⟩ := h
          have hup : Upholds (fun _ => False) s (s.setOpening i o') := upholds_of_conns rfl
          exact hs.goes ho (goes_unsent hunsent) rfl rfl (hup.of_conns rfl) (fun _ h => h.elim)
            (fun _ _ _ _ => id) fun _ _ hnew => by cases hnew
      · cases h
  | panic i j =>
      refine hs.quits ?_ ?_ h
      · intro u hu
        exact (beq_iff_eq.mp (Bool.and_eq_true _ _ ▸ hu).1)
      · intro o o' hmoved
        obtain ⟨hgoes, hgone⟩ := goes_panic hmoved
        refine ⟨hgoes, fun who c protocol hout hwhose => ?_⟩
        have hwho : who = .extra j := beq_iff_eq.mp (Bool.and_eq_true _ _ ▸ hwhose).2
        rw [hwho, hgone] at hout
        cases hout
  | join i j => exact hs.advance (fun _ _ => goes_join) h
  | joinedAll i => exact hs.advance (fun _ _ => goes_joinedAll) h
  | spawn i result => exact hs.advance (fun _ _ => goes_spawn) h
  | spawnedAll i => exact hs.advance (fun _ _ => goes_spawnedAll) h
  | abandon i =>
      refine hs.quits (fun u hu => beq_iff_eq.mp hu) ?_ h
      intro o o' hmoved
      obtain ⟨hgoes, hgone⟩ := goes_abandon hmoved
      refine ⟨hgoes, fun who c protocol hout => ?_⟩
      rw [hgone who] at hout
      cases hout
  | otherSend conn =>
      simp only [step, Option.map_eq_some_iff, Prod.exists] at h
      obtain ⟨c, s₁, htake, rfl⟩ := h
      have htakes := takes_of_take htake
      have hup := htakes.upholds (fun _ => False) .serving
      have hlog : s₁.log ++ [.sent c none] = s.log ++ [.sent c none] := by rw [htakes.log]
      exact hs.mono htakes.opens hlog (hup.of_conns rfl)
  | otherDone c =>
      simp only [step] at h
      split at h
      · next huse =>
          cases h
          exact owned_setUse hs huse id
      · cases h
  | release c =>
      simp only [step] at h
      split at h
      · next huse =>
          cases h
          exact owned_setUse hs huse id
      · cases h
  | close c =>
      simp only [step] at h
      split at h
      · next huse =>
          cases h
          rcases huse with huse | huse
          · exact owned_setUse hs huse id
          · exact owned_setUse hs huse id
      · cases h

/-! ## The connections of a session -/

/-- The connections of an opened session: at least one and at most as many as were
asked for, each of them accepted in the session's protocol, and none of them in use
anywhere else. -/
theorem session_connections (cluster : Cluster) (as : List Act) (s : State)
    (h : (negotiation cluster).run (negotiation cluster).init as = some s)
    (i : OpenId) (o : Opening) (protocol : Subprotocol) (handles : List ConnId)
    (ho : s.opens[i]? = some o) (hpc : o.pc = .opened protocol handles) :
    handles ≠ [] ∧ handles.length ≤ o.poolSize ∧ handles.Nodup ∧
      (∀ c ∈ handles, Accepted s.log i c protocol) ∧
      ∀ (k : OpenId) (o' : Opening), k ≠ i → s.opens[k]? = some o' →
        ∀ c ∈ handles, c ∉ o'.holds := by
  have hs := owned_invariant cluster as s h (meets_anyStep _ _)
  have hsized := (hs.sized i o ho).2
  have hkeeps : o.keeps = handles := by
    simp only [Opening.keeps, hpc]
  rw [hpc] at hsized
  refine ⟨hsized.1, hsized.2, ?_, ?_, ?_⟩
  · rw [← hkeeps]
    exact hs.nodup i o ho
  · intro c hc
    refine hs.accepted i o protocol c ho ⟨handles, ?_, hc⟩
    simp only [Opening.pool, hpc]
  · intro k o' hk ho' c hc hholds
    obtain ⟨x, u, hx, huse, hu⟩ := hs.mine i o c ho (hkeeps ▸ hc)
    rcases List.mem_append.mp hholds with hwaits | hkept
    · obtain ⟨who, p, hflight⟩ := waits_flight hwaits
      obtain ⟨y, hy, hfits⟩ := hs.flights k o' who c p none ho' hflight
      have hfits : y.use = .upgrading ⟨k, who, p⟩ := hfits
      rw [hx] at hy
      cases hy
      rw [huse] at hfits
      cases hfits
    · obtain ⟨y, v, hy, huse', hv⟩ := hs.mine k o' c ho' hkept
      rw [hx] at hy
      cases hy
      rw [huse] at huse'
      cases huse'
      exact hk (hv.symm.trans hu)

/-- The apiserver does not know the request. -/
def notFound : Answer := .response { status := 404, headers := [] } (.error "no upgrade")

def legacyAccepted : Answer :=
  .response
    { status := 101
      headers := [("upgrade", asBytes "spdy/3.1"),
        ("x-stream-protocol-version", asBytes LEGACY_STREAM_PROTOCOL)] }
    (.ok ())

/-- A pool of three over an apiserver that only speaks the legacy protocol; one of the
upgrades that fill the pool is rejected and one of the multiplexers does not start.  The
connection of an earlier request is used again, that of the rejected probe is not. -/
def legacyActs : List Act :=
  [.openSession ((SessionBuilder.new "default" "web-0" 8080).spdyPoolSize 3), .otherSend none,
    .send 0 .probe none, .arrive 0 .probe notFound, .answer 0 .probe, .release 1, .otherDone 0,
    .send 0 .probe (some 0), .arrive 0 .probe legacyAccepted, .answer 0 .probe,
    .send 0 (.extra 1) none, .send 0 (.extra 0) none, .arrive 0 (.extra 0) notFound,
    .answer 0 (.extra 0), .arrive 0 (.extra 1) legacyAccepted, .answer 0 (.extra 1), .join 0 1,
    .join 0 0, .joinedAll 0, .spawn 0 (.ok ()), .spawn 0 (.error .muxClosed), .spawnedAll 0]

theorem session_connections_legacy :
    ∃ s o, (negotiation testCluster).run (negotiation testCluster).init legacyActs = some s ∧
      s.opens[0]? = some o ∧ o.pc = .opened .legacySpdy [0] ∧
      Accepted s.log 0 0 .legacySpdy := by
  have hobs : ((negotiation testCluster).run (negotiation testCluster).init legacyActs).map
      (fun s => s.opens.map Opening.pc) = some [.opened .legacySpdy [0]] := by
    decide +kernel
  obtain ⟨s, hrun, hpcs⟩ := Option.map_eq_some_iff.mp hobs
  have hpc : (s.opens[0]?).map Opening.pc = some (.opened .legacySpdy [0]) := by
    rw [← List.getElem?_map, hpcs]
    rfl
  obtain ⟨o, ho, hpc⟩ := Option.map_eq_some_iff.mp hpc
  have hsession := session_connections testCluster legacyActs s hrun 0 o _ _ ho hpc
  exact ⟨s, o, hrun, ho, hpc, hsession.2.2.2.1 0 (List.mem_singleton_self 0)⟩

end KubePortForward.Connect
