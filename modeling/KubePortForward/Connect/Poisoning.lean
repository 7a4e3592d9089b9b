import KubePortForward.Verified.Timeline
import KubePortForward.Connect.Exclusive

/-!
# When the connection of a rejected upgrade is used again

A connection that switched protocols never carries another request, and neither does one
that a request failed on.  The connection of a rejected upgrade is the client's again as
soon as the answer has arrived; the call poisons it when it acts on the answer, and a
call that was dropped never does.  So other requests may go out over it in between.  They
go out at no other time: not before the answer, and not after the poison.

## Main results

* `guarded_invariant` — what the log says of the connections the client may hand out.
* `reused_before_poisoned` — when a request follows an upgrade on its connection.
-/

namespace KubePortForward.Connect

open KubePortForward.Verified.Timeline
open KubePortForward.Verified.Transition

/-! ## What the log says of a connection -/

/-- The apiserver turned the upgrade down. -/
def Answer.Rejects : Answer → Prop
  | .failed _ => False
  | .response res _ => res.status ≠ SWITCHING_PROTOCOLS

/-- The connection an event is about. -/
def Event.conn : Event → Option ConnId
  | .sent c _ => some c
  | .arrived c _ _ => some c
  | .answered c _ _ => some c
  | .signalled _ _ => none

/-- A request goes out over `c`. -/
def Event.Over (c : ConnId) (e : Event) : Prop := ∃ v, e = .sent c v

/-- The upgrade `u` is asked for over `c`. -/
def Event.Asks (c : ConnId) (u : Upgrade) (e : Event) : Prop := e = .sent c (some u)

/-- The answer that turns `u` down arrives over `c`. -/
def Event.TurnsDown (c : ConnId) (u : Upgrade) (e : Event) : Prop :=
  ∃ a, e = .arrived c u a ∧ a.Rejects

/-- The client must not hand `c` out again: an answer that does not reject its upgrade has
arrived over it, or a call has acted on an answer. -/
def Event.Ends (c : ConnId) (e : Event) : Prop :=
  (∃ u a, e = .answered c u a) ∨ ∃ u a, e = .arrived c u a ∧ ¬ a.Rejects

theorem conn_of_over {c : ConnId} {e : Event} (h : e.Over c) : e.conn = some c := by
  obtain ⟨v, rfl⟩ := h
  rfl

theorem conn_of_asks {c : ConnId} {u : Upgrade} {e : Event} (h : e.Asks c u) :
    e.conn = some c := by
  cases h
  rfl

theorem conn_of_ends {c : ConnId} {e : Event} (h : e.Ends c) : e.conn = some c := by
  rcases h with ⟨u, a, rfl⟩ | ⟨u, a, rfl, -⟩
  · rfl
  · rfl

theorem over_of_asks {c : ConnId} {u : Upgrade} {e : Event} (h : e.Asks c u) : e.Over c :=
  ⟨some u, h⟩

theorem sent_not_ends (c d : ConnId) (v : Option Upgrade) : ¬ (Event.sent d v).Ends c := by
  rintro (⟨u, a, h⟩ | ⟨u, a, h, -⟩)
  · cases h
  · cases h

/-- A signal is about no connection. -/
theorem signals_conn {i : OpenId} {signal : Option RecoverySignal} {e : Event}
    (h : e ∈ signals i signal) : e.conn = none := by
  obtain ⟨x, -, rfl⟩ := List.mem_map.mp h
  rfl

/-! ## What the client may hand out -/

/-- The client may hand the connection out again some day. -/
def ConnUse.Live : ConnUse → Prop
  | .switched _ => False
  | .gone => False
  | _ => True

structure Guarded (s : State) : Prop where
  known : ∀ e ∈ s.log, ∀ c, e.conn = some c → c < s.conns.length
  unended : ∀ (c : ConnId) x, s.conns[c]? = some x → x.use.Live → x.poisoned = false →
    ∀ e ∈ s.log, ¬ e.Ends c
  followed : ∀ (c : ConnId) x u, s.conns[c]? = some x → x.use.Live → x.use ≠ .upgrading u →
    Followed (Event.Asks c u) (Event.TurnsDown c u) s.log
  separated : ∀ c u, Separated (Event.Asks c u) (Event.TurnsDown c u) (Event.Over c) s.log
  unpreceded : ∀ c, Unpreceded (Event.Ends c) (Event.Over c) s.log

/-- A step that sends nothing: what is handed out later was there before it, is not healed,
and has not lost its upgrade unless the upgrade was turned down. -/
structure Wears (s s' : State) (more : List Event) : Prop where
  length : s.conns.length ≤ s'.conns.length
  known : ∀ e ∈ more, ∀ c, e.conn = some c → c < s.conns.length
  unsent : ∀ e ∈ more, ∀ c, ¬ e.Over c
  conn : ∀ (c : ConnId) x', s'.conns[c]? = some x' → x'.use.Live →
    ∃ x, s.conns[c]? = some x ∧ x.use.Live ∧
      (x'.poisoned = false → x.poisoned = false ∧ ∀ e ∈ more, ¬ e.Ends c) ∧
      ∀ u, x'.use ≠ .upgrading u → x.use ≠ .upgrading u ∨ ∃ e ∈ more, e.TurnsDown c u

theorem Wears.of_conns {s s' s'' : State} {more : List Event} (h : Wears s s' more)
    (hconns : s''.conns = s'.conns) : Wears s s'' more where
  length := by
    rw [hconns]
    exact h.length
  known := h.known
  unsent := h.unsent
  conn := by
    rw [hconns]
    exact h.conn

theorem Guarded.wears {s s' : State} {more : List Event} (hs : Guarded s)
    (hlog : s'.log = s.log ++ more) (h : Wears s s' more) : Guarded s' where
  known := by
    rw [hlog]
    intro e he c hc
    rcases List.mem_append.mp he with he | he
    · exact Nat.lt_of_lt_of_le (hs.known e he c hc) h.length
    · exact Nat.lt_of_lt_of_le (h.known e he c hc) h.length
  unended := by
    rw [hlog]
    intro c x' hx' hlive hclean e he
    obtain ⟨x, hx, hlive', hwas, -⟩ := h.conn c x' hx' hlive
    obtain ⟨hclean', hmore⟩ := hwas hclean
    rcases List.mem_append.mp he with he | he
    · exact hs.unended c x hx hlive' hclean' e he
    · exact hmore e he
  followed := by
    rw [hlog]
    intro c x' u hx' hlive huse
    obtain ⟨x, hx, hlive', -, hlost⟩ := h.conn c x' hx' hlive
    have hmore : ∀ e ∈ more, ¬ e.Asks c u := fun e he hasks =>
      h.unsent e he c (over_of_asks hasks)
    rcases hlost u huse with hother | hturned
    · exact (hs.followed c x u hx hlive' hother).append hmore
    · exact Followed.closed hmore hturned
  separated := by
    rw [hlog]
    exact fun c u => (hs.separated c u).append fun e he => h.unsent e he c
  unpreceded := by
    rw [hlog]
    exact fun c => (hs.unpreceded c).append fun e he => h.unsent e he c

/-! ## The steps -/

theorem wears_of_conns {s s' : State} {more : List Event} (h : s'.conns = s.conns)
    (hmore : ∀ e ∈ more, e.conn = none) : Wears s s' more where
  length := Nat.le_of_eq (congrArg List.length h).symm
  known := by
    intro e he c hc
    rw [hmore e he] at hc
    cases hc
  unsent := by
    intro e he c hover
    have := conn_of_over hover
    rw [hmore e he] at this
    cases this
  conn := by
    intro c x' hx' hlive
    rw [h] at hx'
    refine ⟨x', hx', hlive, fun hclean => ⟨hclean, ?_⟩, fun u huse => .inl huse⟩
    intro e he hends
    have := conn_of_ends hends
    rw [hmore e he] at this
    cases this

theorem wears_refl (s : State) : Wears s s [] := wears_of_conns rfl (List.forall_mem_nil _)

/-- A connection that is not waiting for an answer changes hands. -/
theorem wears_setUse {s : State} {c : ConnId} {old use : ConnUse}
    (hold : (s.conns[c]?).map Conn.use = some old) (hlive : old.Live)
    (hwaits : ∀ u, old ≠ .upgrading u) : Wears s (s.setUse c use) [] where
  length := Nat.le_of_eq (length_setUse s c use).symm
  known := List.forall_mem_nil _
  unsent := List.forall_mem_nil _
  conn := by
    intro d x' hx' hlive'
    by_cases hd : c = d
    · subst hd
      obtain ⟨x, hx, rfl⟩ := Option.map_eq_some_iff.mp hold
      rw [setUse_self use hx] at hx'
      cases hx'
      exact ⟨x, hx, hlive, fun hclean => ⟨hclean, List.forall_mem_nil _⟩,
        fun u _ => .inl (hwaits u)⟩
    · rw [setUse_other use hd] at hx'
      exact ⟨x', hx', hlive', fun hclean => ⟨hclean, List.forall_mem_nil _⟩,
        fun u huse => .inl huse⟩

theorem wears_giveUp (s : State) (whose : Upgrade → Bool) : Wears s (s.giveUp whose) [] where
  length := by simp [State.giveUp]
  known := List.forall_mem_nil _
  unsent := List.forall_mem_nil _
  conn := by
    intro c x' hx' hlive
    rw [giveUp_getElem?, Option.map_eq_some_iff] at hx'
    obtain ⟨x, hx, hx'⟩ := hx'
    have hsame : x' = x := by
      split at hx'
      · split at hx'
        · rw [← hx'] at hlive
          exact hlive.elim
        · exact hx'.symm
      · exact hx'.symm
    rw [hsame] at hlive ⊢
    exact ⟨x, hx, hlive, fun hclean => ⟨hclean, List.forall_mem_nil _⟩, fun u huse => .inl huse⟩

/-- An answer arrives: only if it rejects the upgrade may the connection be handed out. -/
theorem wears_arrive {s : State} {c : ConnId} {x : Conn} {u : Upgrade} (a : Answer)
    (hx : s.conns[c]? = some x) (hwaits : x.use = .upgrading u) :
    Wears s (s.handBack c u a) [.arrived c u a] := by
  obtain ⟨use, hback, -, huse⟩ := handBack_eq s c u a
  rw [hback]
  refine ⟨Nat.le_of_eq (length_setUse s c use).symm, ?_, ?_, ?_⟩
  · intro e he d hd
    rw [List.mem_singleton.mp he] at hd
    cases hd
    exact (List.getElem?_eq_some_iff.mp hx).1
  · intro e he d hover
    rw [List.mem_singleton.mp he] at hover
    obtain ⟨v, hv⟩ := hover
    cases hv
  · intro d x' hx' hlive
    by_cases hd : c = d
    · subst hd
      rw [setUse_self use hx] at hx'
      cases hx'
      have hrejects : a.Rejects := by
        rcases huse with ⟨-, res, upgraded, rfl, hstatus⟩ | rfl | rfl
        · exact hstatus
        · exact hlive.elim
        · exact hlive.elim
      refine ⟨x, hx, by rw [hwaits]; trivial, fun hclean => ⟨hclean, ?_⟩, fun v _ => ?_⟩
      · rintro e he (⟨v, b, hb⟩ | ⟨v, b, hb, hnot⟩)
        · rw [List.mem_singleton.mp he] at hb
          cases hb
        · rw [List.mem_singleton.mp he] at hb
          cases hb
          exact hnot hrejects
      · by_cases hv : v = u
        · subst hv
          exact .inr ⟨_, List.mem_singleton_self _, a, rfl, hrejects⟩
        · left
          rw [hwaits]
          intro h
          cases h
          exact hv rfl
    · rw [setUse_other use hd] at hx'
      refine ⟨x', hx', hlive, fun hclean => ⟨hclean, ?_⟩, fun v hv => .inl hv⟩
      intro e he hends
      have := conn_of_ends hends
      rw [List.mem_singleton.mp he] at this
      cases this
      exact hd rfl

/-- A call acts on an answer: it poisons the connection, unless that is lost anyway. -/
theorem wears_answer {s : State} {c : ConnId} {x : Conn} {u : Upgrade} {a : Answer}
    (signal : Option RecoverySignal) (hx : s.conns[c]? = some x) (hfits : x.use.Fits u (some a)) :
    Wears s (s.settle c a) (.answered c u a :: signals u.opening signal) := by
  refine ⟨Nat.le_of_eq (length_settle s c a).symm, ?_, ?_, ?_⟩
  · intro e he d hd
    rcases List.mem_cons.mp he with rfl | he
    · cases hd
      exact (List.getElem?_eq_some_iff.mp hx).1
    · rw [signals_conn he] at hd
      cases hd
  · rintro e he d ⟨v, rfl⟩
    rcases List.mem_cons.mp he with he | he
    · cases he
    · cases signals_conn he
  · intro d x' hx' hlive
    have huse := settle_use s c d a
    rw [hx'] at huse
    obtain ⟨y, hy, hsame⟩ := Option.map_eq_some_iff.mp huse.symm
    refine ⟨y, hy, by rw [hsame]; exact hlive, ?_, fun v hv => .inl (by rw [hsame]; exact hv)⟩
    by_cases hd : c = d
    · subst hd
      rw [hx] at hy
      cases hy
      intro hclean
      exfalso
      rcases settle_cases s c a with ⟨-, hswitched⟩ | hpoison
      · cases a with
        | failed message =>
            have hgone : x.use = .gone := hfits
            rw [← hsame, hgone] at hlive
            exact hlive
        | response res upgraded =>
            have hgiven : x.use = .switched u := hfits (hswitched res upgraded rfl)
            rw [← hsame, hgiven] at hlive
            exact hlive
      · rw [hpoison, poison_getElem?, hx] at hx'
        simp only [Option.map_some, if_true, Option.some.injEq] at hx'
        rw [← hx'] at hclean
        cases hclean
    · have hother : s.conns[d]? = some x' := by
        rcases settle_cases s c a with ⟨hsettle, -⟩ | hpoison
        · rwa [hsettle] at hx'
        · rw [hpoison, poison_getElem?] at hx'
          simpa [hd] using hx'
      rw [hy] at hother
      cases hother
      intro hclean
      refine ⟨hclean, fun e he hends => ?_⟩
      have hconn := conn_of_ends hends
      rcases List.mem_cons.mp he with rfl | he
      · cases hconn
        exact hd rfl
      · rw [signals_conn he] at hconn
        cases hconn

/-- Nothing keeps a connection that the client hands out from being used. -/
theorem Guarded.free {s s₁ : State} {c : ConnId} (hs : Guarded s) (h : Takes s s₁ c) :
    (∀ e ∈ s.log, ¬ e.Ends c) ∧
      ∀ u, Followed (Event.Asks c u) (Event.TurnsDown c u) s.log := by
  rcases h.found with hnew | hidle
  · have hnone : ∀ e ∈ s.log, e.conn ≠ some c := by
      intro e he hc
      exact absurd hnew (Nat.ne_of_lt (hs.known e he c hc))
    exact ⟨fun e he hends => hnone e he (conn_of_ends hends),
      fun u => Followed.of_none fun e he hasks => hnone e he (conn_of_asks hasks)⟩
  · exact ⟨hs.unended c _ hidle trivial rfl,
      fun u => hs.followed c _ u hidle trivial fun huse => by cases huse⟩

/-- A request goes out over a connection that the client handed out. -/
theorem Guarded.sends {s s₁ s' : State} {c : ConnId} {use : ConnUse} {v : Option Upgrade}
    (hs : Guarded s) (h : Takes s s₁ c) (hconns : s'.conns = (s₁.setUse c use).conns)
    (hlog : s'.log = s.log ++ [.sent c v]) (huse : ∀ u, use ≠ .upgrading u → v ≠ some u) :
    Guarded s' := by
  obtain ⟨hunended, hfollowed⟩ := hs.free h
  have hself : s'.conns[c]? = some ⟨use, false⟩ := by
    rw [hconns, setUse_self use h.self]
  have hothers : ∀ d : ConnId, d ≠ c → s'.conns[d]? = s.conns[d]? := by
    intro d hd
    rw [hconns, setUse_other use (Ne.symm hd), h.others d hd]
  have hnot : ∀ d, d ≠ c → ∀ e ∈ [Event.sent c v], ¬ e.Over d := by
    intro d hd e he hover
    have := conn_of_over hover
    rw [List.mem_singleton.mp he] at this
    cases this
    exact hd rfl
  refine ⟨?_, ?_, ?_, ?_, ?_⟩
  · rw [hlog]
    intro e he d hd
    rcases List.mem_append.mp he with he | he
    · refine Nat.lt_of_lt_of_le (hs.known e he d hd) ?_
      rw [hconns, length_setUse]
      exact h.length
    · rw [List.mem_singleton.mp he] at hd
      cases hd
      exact (List.getElem?_eq_some_iff.mp hself).1
  · rw [hlog]
    intro d x hx hlive hclean e he
    rcases List.mem_append.mp he with he | he
    · by_cases hd : d = c
      · rw [hd]
        exact hunended e he
      · rw [hothers d hd] at hx
        exact hs.unended d x hx hlive hclean e he
    · rw [List.mem_singleton.mp he]
      exact sent_not_ends d c v
  · rw [hlog]
    intro d x u hx hlive hu
    by_cases hd : d = c
    · subst hd
      rw [hself] at hx
      cases hx
      refine (hfollowed u).append fun e he hasks => huse u hu ?_
      rw [List.mem_singleton.mp he] at hasks
      cases hasks
      rfl
    · rw [hothers d hd] at hx
      exact (hs.followed d x u hx hlive hu).append fun e he hasks =>
        hnot d hd e he (over_of_asks hasks)
  · rw [hlog]
    intro d u
    by_cases hd : d = c
    · rw [hd]
      exact (hs.separated c u).snoc (hfollowed u) _
    · exact (hs.separated d u).append (hnot d hd)
  · rw [hlog]
    intro d
    by_cases hd : d = c
    · rw [hd]
      exact (hs.unpreceded c).snoc hunended _
    · exact (hs.unpreceded d).append (hnot d hd)

/-- The client takes a connection back or closes it, or another request is done. -/
theorem Guarded.setUse {s : State} {c : ConnId} {old use : ConnUse} (hs : Guarded s)
    (hold : (s.conns[c]?).map Conn.use = some old) (hlive : old.Live)
    (hwaits : ∀ u, old ≠ .upgrading u) : Guarded (s.setUse c use) :=
  hs.wears (List.append_nil _).symm (wears_setUse hold hlive hwaits)

/-- A step in which one call moves on by itself. -/
theorem Guarded.advance {s s' : State} {i : OpenId} {move : Opening → Option Opening}
    (hs : Guarded s) (h : s.advance i move = some s') : Guarded s' := by
  unfold State.advance at h
  split at h
  · next o ho =>
      rw [Option.map_eq_some_iff] at h
      obtain ⟨o', -, rfl⟩ := h
      exact hs.wears (List.append_nil _).symm ((wears_refl s).of_conns rfl)
  · cases h

/-- A step in which one call gives up requests of its own. -/
theorem Guarded.quits {s s' : State} {i : OpenId} {move : Opening → Option Opening}
    {whose : Upgrade → Bool} (hs : Guarded s)
    (h : (s.advance i move).map (fun s' => s'.giveUp whose) = some s') : Guarded s' := by
  rw [Option.map_eq_some_iff] at h
  obtain ⟨s₁, hadvance, rfl⟩ := h
  exact (hs.advance hadvance).wears (List.append_nil _).symm (wears_giveUp s₁ whose)

theorem guarded_invariant (cluster : Cluster) :
    (negotiation cluster).Invariant anyStep Guarded := by
  refine Invariant.of_step_using (owned_invariant cluster) ?_ ?_
  · refine ⟨List.forall_mem_nil _, ?_, ?_, ?_, ?_⟩
    · intro c x hx
      cases hx
    · intro c x u hx
      cases hx
    · intro c u front e between e' after hlog
      simp [negotiation] at hlog
    · intro c front e after hlog
      simp [negotiation] at hlog
  intro s a s' howned hs _ h
  replace h : step cluster s a = some s' := h
  cases a with
  | openSession b =>
      cases h
      exact hs.wears (List.append_nil _).symm ((wears_refl s).of_conns rfl)
  | send i who conn =>
      simp only [step] at h
      split at h
      · next o c s₁ ho htake =>
          rw [Option.map_eq_some_iff] at h
          obtain ⟨⟨protocol, o'⟩, hsend, rfl⟩ := h
          have htakes := takes_of_take htake
          have hlog : s₁.log ++ [.sent c (some ⟨i, who, protocol⟩)] =
              s.log ++ [.sent c (some ⟨i, who, protocol⟩)] := by rw [htakes.log]
          refine hs.sends htakes rfl hlog fun u hother hsame => ?_
          cases hsame
          exact hother rfl
      · cases h
  | arrive i who a =>
      simp only [step] at h
      split at h
      · next o ho =>
          rw [Option.map_eq_some_iff] at h
          obtain ⟨⟨c, protocol, o'⟩, harrive, rfl⟩ := h
          obtain ⟨x, hx, hwaits⟩ := howned.flights i o who c protocol none ho
            (arrives_of_arrive harrive).waited
          have hwears := wears_arrive a hx hwaits
          have hlog : (s.handBack c ⟨i, who, protocol⟩ a).log ++ [.arrived c ⟨i, who, protocol⟩ a] =
              s.log ++ [.arrived c ⟨i, who, protocol⟩ a] := by
            rw [(handBack_rest s c ⟨i, who, protocol⟩ a).2]
          exact hs.wears hlog (hwears.of_conns rfl)
      · cases h
  | answer i who =>
      simp only [step] at h
      split at h
      · next o ho =>
          rw [Option.map_eq_some_iff] at h
          obtain ⟨⟨c, protocol, a, o', signal⟩, hanswer, rfl⟩ := h
          obtain ⟨x, hx, hfits⟩ := howned.flights i o who c protocol (some a) ho
            (goes_answer hanswer).2
          have hwears := wears_answer signal hx hfits
          have hlog : (s.settle c a).log ++ .answered c ⟨i, who, protocol⟩ a :: signals i signal =
              s.log ++ .answered c ⟨i, who, protocol⟩ a :: signals i signal := by
            rw [(settle_rest s c a).2]
          exact hs.wears hlog (hwears.of_conns rfl)
      · cases h
  | unsent i who message =>
      simp only [step] at h
      split at h
      · next o ho =>
          rw [Option.map_eq_some_iff] at h
          obtain ⟨⟨o', signal⟩, -, rfl⟩ := h
          exact hs.wears rfl (wears_of_conns rfl fun e he => signals_conn he)
      · cases h
  | panic i j => exact hs.quits h
  | join i j => exact hs.advance h
  | joinedAll i => exact hs.advance h
  | spawn i result => exact hs.advance h
  | spawnedAll i => exact hs.advance h
  | abandon i => exact hs.quits h
  | otherSend conn =>
      simp only [step, Option.map_eq_some_iff, Prod.exists] at h
      obtain ⟨c, s₁, htake, rfl⟩ := h
      have htakes := takes_of_take htake
      have hlog : s₁.log ++ [.sent c none] = s.log ++ [.sent c none] := by rw [htakes.log]
      exact hs.sends htakes rfl hlog fun u _ hsame => by cases hsame
  | otherDone c =>
      simp only [step] at h
      split at h
      · next huse =>
          cases h
          exact hs.setUse huse trivial fun u hu => by cases hu
      · cases h
  | release c =>
      simp only [step] at h
      split at h
      · next huse =>
          cases h
          exact hs.setUse huse trivial fun u hu => by cases hu
      · cases h
  | close c =>
      simp only [step] at h
      split at h
      · next huse =>
          cases h
          rcases huse with huse | huse
          · exact hs.setUse huse trivial fun u hu => by cases hu
          · exact hs.setUse huse trivial fun u hu => by cases hu
      · cases h

/-! ## Requests after an upgrade -/

/-- Whatever the apiserver answers and however the calls and the other requests of the
client interleave: a request that goes out over a connection after an upgrade does so only
once the answer that rejects the upgrade has arrived.  By then no other answer has come
over the connection than a rejection, and no call has acted on one. -/
theorem reused_before_poisoned (cluster : Cluster) (as : List Act) (s : State)
    (h : (negotiation cluster).run (negotiation cluster).init as = some s)
    (front between after : List Event) (c : ConnId) (u : Upgrade) (v : Option Upgrade)
    (hlog : s.log = front ++ .sent c (some u) :: (between ++ .sent c v :: after)) :
    (∃ a, .arrived c u a ∈ between ∧ a.Rejects) ∧
      (∀ u' a, .arrived c u' a ∈ front ++ between → a.Rejects) ∧
      ∀ u' a, .answered c u' a ∉ front ++ between := by
  have hs := guarded_invariant cluster as s h (meets_anyStep _ _)
  have hbefore : ∀ e ∈ front ++ between, ¬ e.Ends c := by
    have hlog' : s.log = (front ++ .sent c (some u) :: between) ++ .sent c v :: after := by
      rw [hlog, List.append_assoc, List.cons_append]
    intro e he
    refine hs.unpreceded c _ _ after hlog' ⟨v, rfl⟩ e ?_
    rcases List.mem_append.mp he with he | he
    · exact List.mem_append_left _ he
    · exact List.mem_append_right _ (List.mem_cons_of_mem _ he)
  refine ⟨?_, ?_, ?_⟩
  · obtain ⟨e, he, a, rfl, hrejects⟩ :=
      hs.separated c u front _ between _ after hlog rfl ⟨v, rfl⟩
    exact ⟨a, he, hrejects⟩
  · intro u' a hin
    by_contra hnot
    exact hbefore _ hin (.inr ⟨u', a, rfl, hnot⟩)
  · intro u' a hin
    exact hbefore _ hin (.inl ⟨u', a, rfl⟩)

/-- The probe is turned down and its connection is back in the pool; another request goes
out over it before the call has acted on the answer, and then the call poisons it. -/
def racingActs : List Act :=
  [.openSession (SessionBuilder.new "default" "web-0" 8080), .send 0 .probe none,
    .arrive 0 .probe notFound, .release 0, .otherSend (some 0), .answer 0 .probe]

theorem reused_before_poisoned_racing :
    ∃ s, (negotiation testCluster).run (negotiation testCluster).init racingActs = some s ∧
      s.conns = [⟨.serving, true⟩] ∧
      ∃ a, .arrived 0 ⟨0, .probe, .spdy31Tunnel⟩ a ∈
        [Event.arrived 0 ⟨0, .probe, .spdy31Tunnel⟩ notFound] ∧ a.Rejects := by
  have hobs : ((negotiation testCluster).run (negotiation testCluster).init racingActs).map
      (fun s => (s.conns, s.log)) = some ([⟨.serving, true⟩],
        [.sent 0 (some ⟨0, .probe, .spdy31Tunnel⟩),
          .arrived 0 ⟨0, .probe, .spdy31Tunnel⟩ notFound, .sent 0 none,
          .answered 0 ⟨0, .probe, .spdy31Tunnel⟩ notFound]) := by
    decide +kernel
  obtain ⟨s, hrun, hsame⟩ := Option.map_eq_some_iff.mp hobs
  obtain ⟨hconns, hlog⟩ := Prod.mk.inj hsame
  exact ⟨s, hrun, hconns,
    (reused_before_poisoned testCluster racingActs s hrun [] [_] [_] 0 _ none hlog).1⟩

end KubePortForward.Connect
