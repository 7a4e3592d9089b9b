import Mathlib.Data.List.Basic

/-!
# Scanning a stream that arrives in chunks

A receiver appends what arrives to a buffer and takes items off its front for as
long as one is complete.  `next` is one such attempt: it waits, or it acts and
goes on with the rest of the buffer.  Nothing here names a particular format.

Whether the cuts can be seen depends on the attempts that act on part of the
stream: where each of them acts as it would with the whole stream in the buffer,
every way of cutting has the same outcome.

## Main results

* `drain_append` — scanning a stream is scanning a first part of it and then the
  rest, where the attempts are stable.
* `feed_eq_drain` — so no way of cutting the stream makes a difference.
-/

namespace KubePortForward.Verified.Framing

variable {σ α β : Type}

/-- Attempts are made until one waits; `n` bounds their number. -/
def drain (next : σ → List β → Option (α × σ × List β)) :
    Nat → σ → List β → List α × σ × List β
  | 0, s, buf => ([], s, buf)
  | n + 1, s, buf =>
      match next s buf with
      | none => ([], s, buf)
      | some (a, s', rest) =>
          match drain next n s' rest with
          | (as, s'', rest') => (a :: as, s'', rest')

/-- Every chunk is appended to the buffer, which is then scanned. -/
def feed (next : σ → List β → Option (α × σ × List β)) :
    σ → List β → List (List β) → List α × σ × List β
  | s, buf, [] => ([], s, buf)
  | s, buf, chunk :: chunks =>
      match drain next (buf ++ chunk).length s (buf ++ chunk) with
      | (as, s', buf') =>
          match feed next s' buf' chunks with
          | (bs, s'', buf'') => (as ++ bs, s'', buf'')

/-- Every attempt that acts takes something off the buffer. -/
def Consumes (next : σ → List β → Option (α × σ × List β)) : Prop :=
  ∀ s buf a s' rest, next s buf = some (a, s', rest) → rest.length < buf.length

/-- An attempt that acts on the first part of the stream acts in the same way on
all of it. -/
def StableAt (next : σ → List β → Option (α × σ × List β)) (s : σ) (stream : List β) : Prop :=
  ∀ buf more a s' rest, stream = buf ++ more → next s buf = some (a, s', rest) →
    next s stream = some (a, s', rest ++ more)

/-- What scanning a stream arrives at. -/
inductive Scans (next : σ → List β → Option (α × σ × List β)) :
    σ → List β → σ → List β → Prop
  | refl (s : σ) (stream : List β) : Scans next s stream s stream
  | step {s s' s'' : σ} {stream rest rest' : List β} {a : α}
      (hnext : next s stream = some (a, s', rest)) (hrest : Scans next s' rest s'' rest') :
      Scans next s stream s'' rest'

/-- The attempts that scanning the stream consists of are stable. -/
def Stable (next : σ → List β → Option (α × σ × List β)) (s : σ) (stream : List β) : Prop :=
  ∀ s' rest, Scans next s stream s' rest → StableAt next s' rest

variable {next : σ → List β → Option (α × σ × List β)} {s s' : σ} {buf rest more : List β}
variable {a : α} {n m : Nat}

theorem Stable.here (h : Stable next s buf) : StableAt next s buf := h s buf (.refl s buf)

theorem Stable.step (h : Stable next s buf) (hnext : next s buf = some (a, s', rest)) :
    Stable next s' rest :=
  fun t rest' hscans => h t rest' (.step hnext hscans)

theorem drain_of_none (h : next s buf = none) : drain next n s buf = ([], s, buf) := by
  cases n with
  | zero => rfl
  | succ n => rw [drain, h]

theorem drain_of_some (h : next s buf = some (a, s', rest)) :
    drain next (n + 1) s buf =
      (a :: (drain next n s' rest).1, (drain next n s' rest).2) := by
  rw [drain, h]

/-- As many attempts as there are items in the buffer are enough. -/
theorem drain_enough (hconsumes : Consumes next) (hn : buf.length ≤ n) :
    drain next n s buf = drain next buf.length s buf := by
  induction n using Nat.strongRecOn generalizing s buf with
  | ind n ih =>
      cases h : next s buf with
      | none => rw [drain_of_none h, drain_of_none h]
      | some x =>
          obtain ⟨a, s', rest⟩ := x
          have hlt := hconsumes s buf a s' rest h
          obtain ⟨k, hk⟩ : ∃ k, n = k + 1 := ⟨n - 1, by omega⟩
          obtain ⟨j, hj⟩ : ∃ j, buf.length = j + 1 := ⟨buf.length - 1, by omega⟩
          subst hk
          rw [hj, drain_of_some h, drain_of_some h, ih k (by omega) (by omega)]
          rcases Nat.lt_or_ge j (k + 1) with hjk | hjk
          · rw [ih j hjk (by omega)]
          · omega

/-- Nothing is left to act on. -/
theorem drain_waits (hconsumes : Consumes next) (hn : buf.length ≤ n) :
    next (drain next n s buf).2.1 (drain next n s buf).2.2 = none := by
  induction n generalizing s buf with
  | zero =>
      cases h : next s buf with
      | none =>
          rw [drain_of_none h]
          exact h
      | some x =>
          obtain ⟨a, s', rest⟩ := x
          have hlt := hconsumes s buf a s' rest h
          omega
  | succ n ih =>
      cases h : next s buf with
      | none =>
          rw [drain_of_none h]
          exact h
      | some x =>
          obtain ⟨a, s', rest⟩ := x
          have hlt := hconsumes s buf a s' rest h
          rw [drain_of_some h]
          exact ih (by omega)

/-- Where a scan has stopped is where more is appended. -/
theorem drain_append (hconsumes : Consumes next) (hstable : Stable next s (buf ++ more)) :
    drain next (buf ++ more).length s (buf ++ more) =
      ((drain next buf.length s buf).1 ++
          (drain next ((drain next buf.length s buf).2.2 ++ more).length
            (drain next buf.length s buf).2.1 ((drain next buf.length s buf).2.2 ++ more)).1,
        (drain next ((drain next buf.length s buf).2.2 ++ more).length
          (drain next buf.length s buf).2.1 ((drain next buf.length s buf).2.2 ++ more)).2) := by
  induction hlen : buf.length using Nat.strongRecOn generalizing s buf with
  | ind k ih =>
      subst hlen
      cases h : next s buf with
      | none =>
          rw [drain_of_none h]
          rfl
      | some x =>
          obtain ⟨a, s', rest⟩ := x
          have hlt := hconsumes s buf a s' rest h
          have hall := hstable.here buf more a s' rest rfl h
          have hlt' := hconsumes _ _ _ _ _ hall
          obtain ⟨j, hj⟩ : ∃ j, buf.length = j + 1 := ⟨buf.length - 1, by omega⟩
          obtain ⟨i, hi⟩ : ∃ i, (buf ++ more).length = i + 1 :=
            ⟨(buf ++ more).length - 1, by omega⟩
          have hrest : drain next j s' rest = drain next rest.length s' rest :=
            drain_enough hconsumes (by omega)
          rw [hi, drain_of_some hall, hj, drain_of_some h, drain_enough hconsumes (by omega),
            hrest, ih rest.length hlt (hstable.step hall) rfl]
          rfl

/-- A scan of the first part of a stable stream is part of a scan of the whole. -/
theorem Stable.drained (hstable : Stable next s (buf ++ more)) :
    Stable next (drain next n s buf).2.1 ((drain next n s buf).2.2 ++ more) := by
  induction n generalizing s buf with
  | zero => exact hstable
  | succ n ih =>
      cases h : next s buf with
      | none =>
          rw [drain_of_none h]
          exact hstable
      | some x =>
          obtain ⟨a, s', rest⟩ := x
          rw [drain_of_some h]
          exact ih (hstable.step (hstable.here buf more a s' rest rfl h))

theorem feed_cons (chunk : List β) (chunks : List (List β)) :
    feed next s buf (chunk :: chunks) =
      ((drain next (buf ++ chunk).length s (buf ++ chunk)).1 ++
          (feed next (drain next (buf ++ chunk).length s (buf ++ chunk)).2.1
            (drain next (buf ++ chunk).length s (buf ++ chunk)).2.2 chunks).1,
        (feed next (drain next (buf ++ chunk).length s (buf ++ chunk)).2.1
          (drain next (buf ++ chunk).length s (buf ++ chunk)).2.2 chunks).2) := rfl

/-- However the stream is cut, it is scanned as if it had arrived at once. -/
theorem feed_eq_drain (hconsumes : Consumes next) (chunks : List (List β))
    (hstable : Stable next s (buf ++ chunks.flatten)) (hwaits : next s buf = none) :
    feed next s buf chunks =
      drain next (buf ++ chunks.flatten).length s (buf ++ chunks.flatten) := by
  induction chunks generalizing s buf with
  | nil =>
      rw [feed, List.flatten_nil, List.append_nil, drain_of_none hwaits]
  | cons chunk chunks ih =>
      rw [List.flatten_cons, ← List.append_assoc] at hstable ⊢
      rw [feed_cons, drain_append hconsumes hstable,
        ih hstable.drained (drain_waits hconsumes (Nat.le_refl _))]

end KubePortForward.Verified.Framing
