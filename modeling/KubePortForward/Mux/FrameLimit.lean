import KubePortForward.Verified.Recording
import KubePortForward.Mux.Ownership

/-!
# The peer's frame size and the streams that were there before

`open_stream_pair` copies the frame size limit into the stream it reserves, and every
write of that stream splits by the copy.  A SETTINGS frame that lowers the limit reaches
the streams reserved afterwards; one that was reserved before goes on with what it has.

The connection runs beside a log: the limit that the reader has stored last, and for
every DATA frame that an owner enqueued the length of its payload with the limit stored
by then.

## Main results

* `Pair.Sized` — what a write has picked is bounded by the limit of its own stream.
* `frame_limit_respected` — so the peer's limit is kept while every stream that writes has
  one that is at most the peer's.
* `stale_limit_exceeded` — a stream reserved before the limit was lowered exceeds it.
-/

namespace KubePortForward.Mux

open KubePortForward.Codec
open KubePortForward.Verified.Channel
open KubePortForward.Verified.Transition

/-- What the reader stored last, and the payload of every DATA frame enqueued so far with
what was stored by then. -/
structure LimitLog where
  stored : Option UInt32 := none
  enqueued : List (Nat × Option UInt32) := []

def LimitLog.data (log : LimitLog) (n : Nat) : LimitLog :=
  { log with enqueued := log.enqueued ++ [(n, log.stored)] }

/-- A write enqueues what it has debited, a shutdown an empty last frame. -/
def logLimits (s : MuxState) (a : Act) (log : LimitLog) : LimitLog :=
  match a with
  | .reader .step =>
      match s.reader.pc with
      | .settingsFrameSize (some m) => { log with stored := some m }
      | _ => log
  | .client p .writeSend =>
      match (s.pairs p).write with
      | .debited payload => log.data payload.length
      | _ => log
  | .client _ .shutdown => log.data 0
  | _ => log

/-- The connection beside its log. -/
def limited (cfg : MuxConfig) : System (MuxState × LimitLog) Act :=
  (mux cfg).recording {} logLimits

/-- The stream that enqueues a frame has a limit of its own, and the limit that the peer
asked for last leaves room for what it lets through. -/
def OwnLimitFits (x : MuxState × LimitLog) : Act → Prop
  | .client p .writeSend => ∀ m ∈ x.2.stored,
      8 < (x.1.pairs p).maxFrameSize.toNat ∧ (x.1.pairs p).maxFrameSize.toNat ≤ m.toNat + 8
  | _ => True

instance (x : MuxState × LimitLog) (a : Act) : Decidable (OwnLimitFits x a) := by
  unfold OwnLimitFits
  split <;> infer_instance

/-! ## What a write has picked -/

/-- What was picked fits the stream's own limit. -/
def Pair.Sized (pr : Pair) : Prop :=
  ∀ payload, pr.write = .picked payload ∨ pr.write = .debited payload →
    8 < pr.maxFrameSize.toNat → payload.length + 8 ≤ pr.maxFrameSize.toNat

theorem writeSize_le_frame {maxFrameSize : UInt32} (h : 8 < maxFrameSize.toNat)
    (w : SendWindow) (buf : Bytes) :
    (buf.take (writeSize maxFrameSize w buf)).length + 8 ≤ maxFrameSize.toNat := by
  simp only [List.length_take, writeSize]
  rw [if_neg (by omega)]
  omega

theorem Pair.Sized.of_eq {pr pr' : Pair} (h : pr.Sized) (hwrite : pr'.write = pr.write)
    (hmax : pr'.maxFrameSize = pr.maxFrameSize) : pr'.Sized := by
  intro payload hpayload
  rw [hwrite] at hpayload
  rw [hmax]
  exact h payload hpayload

theorem Pair.Sized.idle {pr : Pair} (h : pr.write = .idle) : pr.Sized := by
  intro payload hpayload
  rw [h] at hpayload
  rcases hpayload with hpayload | hpayload <;> contradiction

/-- Steps that do not belong to a write leave it alone, and the limit of a pair is set when
it is granted. -/
theorem client_keeps_write {cfg : MuxConfig} {p : Nat} {c : ClientAct} {sh sh' : Shared}
    {pr pr' : Pair} (hpick : c ≠ .writePick) (hrecheck : c ≠ .writeRecheck)
    (hdebit : c ≠ .writeDebit) (h : clientStep cfg p c sh pr = some (sh', pr')) :
    (∀ payload, pr'.write ≠ .picked payload ∧ pr'.write ≠ .debited payload) ∨
      pr'.write = pr.write ∧ (pr'.maxFrameSize = pr.maxFrameSize ∨ pr.phase = .granting) := by
  cases c with
  | writePick => exact absurd rfl hpick
  | writeRecheck => exact absurd rfl hrecheck
  | writeDebit => exact absurd rfl hdebit
  | writeBegin buf =>
      simp only [clientStep, Pair.writeBegin] at h
      split at h
      · cases h
        exact .inl fun payload => ⟨by simp, by simp⟩
      · contradiction
  | writeSend =>
      simp only [clientStep, Pair.writeSend] at h
      (repeat' split at h) <;> cases h
      exact .inl fun payload => ⟨by simp, by simp⟩
  | writeReserve =>
      simp only [clientStep, Pair.writeReserve] at h
      (repeat' split at h) <;> cases h
      · exact .inr ⟨rfl, .inl rfl⟩
      · exact .inr ⟨rfl, .inl rfl⟩
      · exact .inl fun payload => ⟨by simp, by simp⟩
  | openStep =>
      refine .inr ?_
      simp only [clientStep, Pair.openStep] at h
      (repeat' split at h) <;> cases h <;> first
        | exact ⟨rfl, .inl rfl⟩
        | exact ⟨rfl, .inr ‹_›⟩
  | read kind n =>
      refine .inr ?_
      simp only [clientStep, Pair.read] at h
      (repeat' split at h) <;> cases h
      cases kind <;> exact ⟨rfl, .inl rfl⟩
  | dropStep =>
      refine .inr ?_
      simp only [clientStep, Pair.dropStep] at h
      (repeat' split at h) <;> first
        | contradiction
        | cases h
          exact ⟨rfl, .inl rfl⟩
        | obtain ⟨_, -, heq⟩ := Option.map_eq_some_iff.1 h
          cases heq
          exact ⟨rfl, .inl rfl⟩
  | _ =>
      refine .inr ?_
      simp only [clientStep, Pair.openBegin, Pair.fillBuf, Pair.consume, Pair.shutdown,
        Pair.dropReceiver, Pair.dropRest] at h
      (repeat' split at h) <;> cases h
      all_goals exact ⟨rfl, .inl rfl⟩

theorem client_sized {cfg : MuxConfig} {p : Nat} {c : ClientAct} {sh sh' : Shared}
    {pr pr' : Pair} (hsized : pr.Sized) (hwriting : pr.write ≠ .idle → pr.phase = .opened)
    (h : clientStep cfg p c sh pr = some (sh', pr')) : pr'.Sized := by
  have hother : (c ≠ .writePick ∧ c ≠ .writeRecheck ∧ c ≠ .writeDebit) → pr'.Sized := by
    rintro ⟨hpick, hrecheck, hdebit⟩
    rcases client_keeps_write hpick hrecheck hdebit h with hnone | ⟨hwrite, hmax | hgrant⟩
    · intro payload hpayload
      rcases hpayload with hpayload | hpayload
      · exact absurd hpayload (hnone payload).1
      · exact absurd hpayload (hnone payload).2
    · exact hsized.of_eq hwrite hmax
    · refine .idle ?_
      rw [hwrite]
      by_contra hbusy
      rw [hwriting hbusy] at hgrant
      contradiction
  cases c with
  | writePick =>
      simp only [clientStep, Pair.writePick] at h
      (repeat' split at h) <;> cases h <;> intro payload hpayload hmax
      · rcases hpayload with hpayload | hpayload <;> contradiction
      · rcases hpayload with hpayload | hpayload
        · cases hpayload
          exact writeSize_le_frame hmax _ _
        · contradiction
  | writeRecheck =>
      simp only [clientStep, Pair.writeRecheck] at h
      (repeat' split at h) <;> cases h
      · exact .idle rfl
      · intro payload hpayload hmax
        rcases hpayload with hpayload | hpayload
        · cases hpayload
          exact writeSize_le_frame hmax _ _
        · contradiction
  | writeDebit =>
      simp only [clientStep, Pair.writeDebit] at h
      split at h
      · next payload hpicked =>
          split at h
          · cases h
            intro payload' hpayload
            rcases hpayload with hpayload | hpayload
            · contradiction
            · cases hpayload
              exact hsized payload (.inl hpicked)
          · cases h
            exact .idle rfl
      · contradiction
  | _ => exact hother ⟨by simp, by simp, by simp⟩

theorem step_sized {cfg : MuxConfig} {s s' : MuxState} {a : Act} (hO : Ownership s)
    (hsized : ∀ p, (s.pairs p).Sized) (h : step cfg s a = some s') (p : Nat) :
    (s'.pairs p).Sized := by
  obtain ⟨q, c, sh, pr, rfl, hc, rfl⟩ | ⟨q, sh, pr, z, rfl, -, hphase, hb, rfl⟩ |
    ⟨z, sh, pr, z', rfl, hz, hr, rfl⟩ | ⟨c, sh, r, rfl, hr, rfl⟩ |
    ⟨w, order, k, sh, rfl, hw, rfl⟩ | ⟨c, sh, wr, rfl, hw, rfl⟩ | ⟨rfl, rfl⟩ := step_cases h
  · by_cases hpq : p = q
    · subst hpq
      simp only [Function.update_self]
      exact client_sized (hsized p) (hO.writing p) hc
    · simpa only [Function.update_of_ne hpq] using hsized p
  · by_cases hpq : p = q
    · subst hpq
      simp only [Function.update_self]
      rcases (realizeBegin_pair hb).2 with ⟨rfl, -⟩ | ⟨y, -, rfl⟩
      · exact (hsized p).of_eq rfl rfl
      · exact (hsized p).of_eq rfl rfl
    · simpa only [Function.update_of_ne hpq] using hsized p
  · by_cases hpq : p = z.pair
    · subst hpq
      simp only [Function.update_self]
      rcases realizeStep_pair hr with ⟨rfl, -⟩ | ⟨rfl, -⟩ | ⟨rfl, -⟩
      · exact hsized z.pair
      · exact (hsized z.pair).of_eq rfl rfl
      · exact (hsized z.pair).of_eq rfl rfl
    · simpa only [Function.update_of_ne hpq] using hsized p
  all_goals exact hsized p

theorem sized_invariant (cfg : MuxConfig) :
    (mux cfg).Invariant anyStep fun s => ∀ p, (s.pairs p).Sized :=
  Invariant.of_step_using (ownership_invariant cfg) (fun _ => .idle rfl)
    fun _ _ _ hO hsized _ h => step_sized hO hsized h

/-! ## What the peer receives -/

/-- Every frame fits the limit that was stored when it was enqueued. -/
def LimitLog.Respected (log : LimitLog) : Prop :=
  ∀ e ∈ log.enqueued, ∀ m ∈ e.2, e.1 ≤ m.toNat

theorem LimitLog.Respected.data {log : LimitLog} (h : log.Respected) {n : Nat}
    (hn : ∀ m ∈ log.stored, n ≤ m.toNat) : (log.data n).Respected :=
  forall_mem_snoc (x := (n, log.stored)) h hn rfl

theorem logLimits_respected {s : MuxState} {a : Act} {log : LimitLog}
    (hsized : ∀ p, (s.pairs p).Sized) (h : log.Respected) (hok : OwnLimitFits (s, log) a) :
    (logLimits s a log).Respected := by
  unfold logLimits
  split
  · split
    · exact h
    · exact h
  · next p =>
      split
      · next payload hdebited =>
          refine h.data fun m hm => ?_
          obtain ⟨hown, hfits⟩ := hok m hm
          have hlen := hsized p payload (.inr hdebited) hown
          exact Nat.le_of_add_le_add_right (Nat.le_trans hlen hfits)
      · exact h
  · exact h.data fun m _ => Nat.zero_le _
  · exact h

/-- In every run in which each stream that enqueues a frame has a limit of its own that is
at most the header more than what the peer asked for last, every DATA frame enqueued
after a SETTINGS has a payload within its limit. -/
theorem frame_limit_respected (cfg : MuxConfig) (as : List Act) (s : MuxState × LimitLog)
    (hrun : (limited cfg).run (limited cfg).init as = some s)
    (hfits : (limited cfg).Meets OwnLimitFits (limited cfg).init as) :
    ∀ e ∈ s.2.enqueued, ∀ m ∈ e.2, e.1 ≤ m.toNat := by
  have hsized : (limited cfg).Invariant OwnLimitFits fun x => ∀ p, (x.1.pairs p).Sized :=
    Invariant.restrict (Invariant.recording (sized_invariant cfg) _ _) fun _ _ _ => trivial
  have hinv : (limited cfg).Invariant OwnLimitFits fun x => x.2.Respected := by
    refine Invariant.of_step_using hsized (by simp [limited, System.recording, LimitLog.Respected])
      fun x a y hx h hok hstep => ?_
    rw [(recording_step hstep).2]
    exact logLimits_respected hx h hok
  exact hinv as s hrun hfits

/-- The reader handles a SETTINGS frame with this frame size. -/
def frameSizeActs (m : UInt32) : List Act :=
  [.reader (.receive (.settings none none (some m))), .reader .step, .reader .step]

/-- The owner of pair `p` writes a buffer that its window admits. -/
def writeActs (p : Nat) (buf : Bytes) : List Act :=
  [.client p (.writeBegin buf), .client p .writeReserve, .client p .writePick,
    .client p .writeDebit, .client p .writeSend]

/-- A stream reserved after the limit was lowered to 16 writes 20 bytes in three calls. -/
def fittingActs : List Act :=
  frameSizeActs 16 ++ openActs 0 ++ realizeActs 0 ++
    writeActs 0 (List.replicate 20 7) ++ writeActs 0 (List.replicate 12 7) ++
    writeActs 0 (List.replicate 4 7)

theorem frame_limit_respected_fitting :
    ∃ s, (limited MuxConfig.default).run (limited MuxConfig.default).init fittingActs = some s ∧
      s.2.enqueued = [(8, some 16), (8, some 16), (4, some 16)] ∧
      ∀ e ∈ s.2.enqueued, ∀ m ∈ e.2, e.1 ≤ m.toNat := by
  have hchecked : ((limited MuxConfig.default).run (limited MuxConfig.default).init
      fittingActs).map (fun s => s.2.enqueued) =
      some [(8, some 16), (8, some 16), (4, some 16)] := by decide +kernel
  obtain ⟨s, hrun, hs⟩ := Option.map_eq_some_iff.1 hchecked
  exact ⟨s, hrun, hs, frame_limit_respected _ _ s hrun (meets_of_check (by decide +kernel))⟩

/-- A stream is reserved and opened, the limit is lowered to 16, and the stream writes 100
bytes. -/
def outgrownActs : List Act :=
  openActs 0 ++ realizeActs 0 ++ frameSizeActs 16 ++ writeActs 0 (List.replicate 100 7)

/-- The stream goes on with the limit it was reserved with. -/
theorem stale_limit_exceeded :
    ∃ s, (limited MuxConfig.default).run (limited MuxConfig.default).init outgrownActs = some s ∧
      ¬ ∀ e ∈ s.2.enqueued, ∀ m ∈ e.2, e.1 ≤ m.toNat := by
  have hchecked : ((limited MuxConfig.default).run (limited MuxConfig.default).init
      outgrownActs).map (fun s => s.2.enqueued) = some [(100, some 16)] := by decide +kernel
  obtain ⟨s, hrun, hs⟩ := Option.map_eq_some_iff.1 hchecked
  refine ⟨s, hrun, fun hall => ?_⟩
  have hle := hall (100, some 16) (by rw [hs]; exact List.mem_cons_self) 16 rfl
  exact absurd hle (by decide)

end KubePortForward.Mux
