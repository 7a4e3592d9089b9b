import KubePortForward.Verified.Timeline
import KubePortForward.Connect.Exclusive

/-!
# What one open asks for and what it reports

An open asks for the WebSocket tunnel first and for the legacy upgrade only once
the tunnel was refused; what fills its pool is asked for in the protocol its probe
was accepted in.  Whoever registered a recovery callback hears of an open exactly
when its probe failed for a reason other than its configuration, and hears of it
once, with the status of the last upgrade that was turned down.

## Main results

* `negotiation_disciplined` — what one open puts on the wire.
* `failures_signalled_once` — what one open reports.
-/

namespace KubePortForward.Connect

open KubePortForward.Forwarder (Error)
open KubePortForward.Verified.Timeline
open KubePortForward.Verified.Transition

/-! ## The log of one open -/

def Event.probeAsk (i : OpenId) : Event → Option Subprotocol
  | .sent _ (some u) => if u.opening = i ∧ u.who = .probe then some u.protocol else none
  | _ => none

def Event.extraAsk (i : OpenId) : Event → Option (Nat × Subprotocol)
  | .sent _ (some ⟨k, .extra j, protocol⟩) => if k = i then some (j, protocol) else none
  | _ => none

/-- The status that turned a probe down. -/
def Event.rejection (i : OpenId) : Event → Option UInt16
  | .answered _ u (.response res _) =>
      if u.opening = i ∧ u.who = .probe ∧ res.status ≠ SWITCHING_PROTOCOLS then some res.status
      else none
  | _ => none

def Event.telling (i : OpenId) : Event → Option RecoverySignal
  | .signalled k signal => if k = i then some signal else none
  | _ => none

/-- What the probe of `i` asked for, in order. -/
def probeAsks (i : OpenId) (log : List Event) : List Subprotocol := log.filterMap (·.probeAsk i)

/-- What filled the pool of `i`: which task asked, and for what. -/
def extraAsks (i : OpenId) (log : List Event) : List (Nat × Subprotocol) :=
  log.filterMap (·.extraAsk i)

def rejections (i : OpenId) (log : List Event) : List UInt16 := log.filterMap (·.rejection i)

/-- What `i` told its callback. -/
def told (i : OpenId) (log : List Event) : List RecoverySignal := log.filterMap (·.telling i)

/-- The apiserver did not agree to the tunnel. -/
def TunnelRefused (i : OpenId) (log : List Event) : Prop :=
  ∃ c res upgraded, .answered c ⟨i, .probe, .spdy31Tunnel⟩ (.response res upgraded) ∈ log ∧
    (res.status ≠ SWITCHING_PROTOCOLS ∨
      res.header "sec-websocket-protocol" ≠ SPDY_SUBPROTOCOL)

def ProbeAccepted (i : OpenId) (log : List Event) (protocol : Subprotocol) : Prop :=
  ∃ c a, .answered c ⟨i, .probe, protocol⟩ a ∈ log ∧ protocol.perform a = .ok ()

theorem TunnelRefused.append {i : OpenId} {log : List Event} (h : TunnelRefused i log)
    (more : List Event) : TunnelRefused i (log ++ more) := by
  obtain ⟨c, res, upgraded, hin, hwhy⟩ := h
  exact ⟨c, res, upgraded, List.mem_append_left _ hin, hwhy⟩

theorem ProbeAccepted.append {i : OpenId} {log : List Event} {protocol : Subprotocol}
    (h : ProbeAccepted i log protocol) (more : List Event) :
    ProbeAccepted i (log ++ more) protocol := by
  obtain ⟨c, a, hin, hok⟩ := h
  exact ⟨c, a, List.mem_append_left _ hin, hok⟩

/-! ## The errors of an upgrade -/

def Configured (e : Error) : Prop := ∃ message, e = .configuration message

/-- The status an error carries. -/
def statusOf : Error → Option UInt16
  | .upgradeFailed status _ => status
  | _ => none

theorem portforwardUri_error {cluster : Cluster} {ns pod : String} {e : Error}
    (h : portforwardUri cluster ns pod = .error e) : Configured e := by
  unfold portforwardUri at h
  split at h
  · cases h
    exact ⟨_, rfl⟩
  split at h
  · cases h
    exact ⟨_, rfl⟩
  split at h
  · cases h
    exact ⟨_, rfl⟩
  split at h
  · cases h
  · cases h
    exact ⟨_, rfl⟩

/-- Why an upgrade fails, and which status the apiserver gave. -/
inductive UpgradeFails (a : Answer) : Error → Prop
  | unsent (message : String) (ha : a = .failed message) : UpgradeFails a (.kube message)
  | rejected (res : Response) (upgraded : Except String Unit) (message : String)
      (ha : a = .response res upgraded) (hstatus : res.status ≠ SWITCHING_PROTOCOLS) :
      UpgradeFails a (.upgradeFailed (some res.status) message)
  | violated (res : Response) (upgraded : Except String Unit) (context detail : String)
      (ha : a = .response res upgraded) (hstatus : res.status = SWITCHING_PROTOCOLS) :
      UpgradeFails a (.protocolViolation context detail)
  | broken (res : Response) (upgraded : Except String Unit) (message : String)
      (ha : a = .response res upgraded) (hstatus : res.status = SWITCHING_PROTOCOLS) :
      UpgradeFails a (.network message)

theorem performWsUpgrade_fails {a : Answer} {e : Error} (h : performWsUpgrade a = .error e) :
    UpgradeFails a e := by
  cases a with
  | failed message =>
      cases h
      exact .unsent message rfl
  | response res upgraded =>
      simp only [performWsUpgrade] at h
      split at h
      · next hstatus =>
          cases h
          exact .rejected res upgraded _ rfl hstatus
      next hstatus =>
      have hstatus := not_not.mp hstatus
      split at h
      · cases h
        exact .violated res upgraded _ _ rfl hstatus
      split at h
      · cases h
      · cases h
        exact .broken res _ _ rfl hstatus

theorem performLegacySpdyUpgrade_fails {a : Answer} {e : Error}
    (h : performLegacySpdyUpgrade a = .error e) : UpgradeFails a e := by
  cases a with
  | failed message =>
      cases h
      exact .unsent message rfl
  | response res upgraded =>
      simp only [performLegacySpdyUpgrade] at h
      split at h
      · next hstatus =>
          cases h
          exact .rejected res upgraded _ rfl hstatus
      next hstatus =>
      have hstatus := not_not.mp hstatus
      split at h
      · cases h
        exact .violated res upgraded _ _ rfl hstatus
      split at h
      · cases h
        exact .violated res upgraded _ _ rfl hstatus
      split at h
      · cases h
      · cases h
        exact .broken res _ _ rfl hstatus

theorem UpgradeFails.not_configured {a : Answer} {e : Error} (h : UpgradeFails a e) :
    ¬ Configured e := by
  rintro ⟨message, rfl⟩
  cases h

/-- An error that is worth a fallback is an answer that refuses the tunnel. -/
theorem refused_of_shouldFallback {a : Answer} {e : Error} (h : performWsUpgrade a = .error e)
    (hfall : shouldFallback e = true) :
    ∃ res upgraded, a = .response res upgraded ∧
      (res.status ≠ SWITCHING_PROTOCOLS ∨
        res.header "sec-websocket-protocol" ≠ SPDY_SUBPROTOCOL) := by
  cases a with
  | failed message =>
      cases h
      cases hfall
  | response res upgraded =>
      refine ⟨res, upgraded, rfl, ?_⟩
      simp only [performWsUpgrade] at h
      split at h
      · next hstatus => exact .inl hstatus
      split at h
      · next hheader => exact .inr hheader
      split at h
      · cases h
      · cases h
        cases hfall

/-- What a first try that is not worth a fallback reports. -/
theorem directSignal_of_fails {a : Answer} {e : Error} (h : UpgradeFails a e)
    (hfall : ¬ shouldFallback e = true) :
    statusOf e = none ∧ ∃ message, directSignal e = some (.upgradeFailed none message) := by
  cases h with
  | unsent message ha => exact ⟨rfl, _, rfl⟩
  | rejected res upgraded message ha hstatus => exact absurd rfl hfall
  | violated res upgraded context detail ha hstatus => exact absurd rfl hfall
  | broken res upgraded message ha hstatus => exact ⟨rfl, _, rfl⟩

/-- The rejection an answer to a probe adds is the status its error carries. -/
theorem UpgradeFails.rejection {a : Answer} {e : Error} (h : UpgradeFails a e) (i : OpenId)
    (c : ConnId) (protocol : Subprotocol) :
    (Event.answered c ⟨i, .probe, protocol⟩ a).rejection i = statusOf e := by
  cases h with
  | unsent message ha => rw [ha]; rfl
  | rejected res upgraded message ha hstatus =>
      rw [ha]
      exact if_pos ⟨rfl, rfl, hstatus⟩
  | violated res upgraded context detail ha hstatus =>
      rw [ha]
      exact if_neg fun h => h.2.2 hstatus
  | broken res upgraded message ha hstatus =>
      rw [ha]
      exact if_neg fun h => h.2.2 hstatus

theorem getLast?_append_toList {α : Type} (l : List α) (x : Option α) :
    (l ++ x.toList).getLast? = x.or l.getLast? := by
  cases x with
  | none => simp
  | some x => simp

/-- The status a failed fallback is reported with is that of the last rejection. -/
theorem fallbackStatus_of_fails {a : Answer} {e : Error} (h : UpgradeFails a e) (wsError : Error) :
    fallbackStatus e wsError = (statusOf e).or (statusOf wsError) := by
  cases h with
  | rejected res upgraded message ha hstatus => rfl
  | unsent message ha => cases wsError <;> rfl
  | violated res upgraded context detail ha hstatus => cases wsError <;> rfl
  | broken res upgraded message ha hstatus => cases wsError <;> rfl

/-! ## Events of one open and of others -/

/-- Nothing in `es` is about the open `i`. -/
structure Elsewhere (i : OpenId) (es : List Event) : Prop where
  probe : probeAsks i es = []
  extra : extraAsks i es = []
  rejection : rejections i es = []
  telling : told i es = []

@[simp] theorem probeAsks_append (i : OpenId) (log more : List Event) :
    probeAsks i (log ++ more) = probeAsks i log ++ probeAsks i more := List.filterMap_append

@[simp] theorem extraAsks_append (i : OpenId) (log more : List Event) :
    extraAsks i (log ++ more) = extraAsks i log ++ extraAsks i more := List.filterMap_append

@[simp] theorem rejections_append (i : OpenId) (log more : List Event) :
    rejections i (log ++ more) = rejections i log ++ rejections i more := List.filterMap_append

@[simp] theorem told_append (i : OpenId) (log more : List Event) :
    told i (log ++ more) = told i log ++ told i more := List.filterMap_append

theorem elsewhere_nil (i : OpenId) : Elsewhere i [] := ⟨rfl, rfl, rfl, rfl⟩

theorem Elsewhere.append {i : OpenId} {es more : List Event} (h : Elsewhere i es)
    (h' : Elsewhere i more) : Elsewhere i (es ++ more) := by
  refine ⟨?_, ?_, ?_, ?_⟩
  · rw [probeAsks_append, h.probe, h'.probe, List.append_nil]
  · rw [extraAsks_append, h.extra, h'.extra, List.append_nil]
  · rw [rejections_append, h.rejection, h'.rejection, List.append_nil]
  · rw [told_append, h.telling, h'.telling, List.append_nil]

theorem elsewhere_other (i : OpenId) (c : ConnId) : Elsewhere i [.sent c none] :=
  ⟨rfl, rfl, rfl, rfl⟩

theorem elsewhere_sent {i k : OpenId} (hk : k ≠ i) (c : ConnId) (who : Who)
    (protocol : Subprotocol) : Elsewhere i [.sent c (some ⟨k, who, protocol⟩)] := by
  cases who with
  | probe =>
      refine ⟨?_, rfl, rfl, rfl⟩
      simp [probeAsks, Event.probeAsk, hk]
  | extra j =>
      refine ⟨?_, ?_, rfl, rfl⟩
      · simp [probeAsks, Event.probeAsk, hk]
      · simp [extraAsks, Event.extraAsk, hk]

theorem elsewhere_answered {i k : OpenId} (hk : k ≠ i) (c : ConnId) (who : Who)
    (protocol : Subprotocol) (a : Answer) :
    Elsewhere i [.answered c ⟨k, who, protocol⟩ a] := by
  refine ⟨rfl, rfl, ?_, rfl⟩
  cases a with
  | failed message => rfl
  | response res upgraded => simp [rejections, Event.rejection, hk]

/-- What has arrived is not acted on yet. -/
theorem elsewhere_arrived (i : OpenId) (c : ConnId) (u : Upgrade) (a : Answer) :
    Elsewhere i [.arrived c u a] := ⟨rfl, rfl, rfl, rfl⟩

theorem elsewhere_signals {i k : OpenId} (hk : k ≠ i) (signal : Option RecoverySignal) :
    Elsewhere i (signals k signal) := by
  cases signal with
  | none => exact elsewhere_nil i
  | some signal =>
      refine ⟨rfl, rfl, rfl, ?_⟩
      simp [told, signals, Event.telling, hk]

theorem told_signals (i : OpenId) (signal : Option RecoverySignal) :
    told i (signals i signal) = signal.toList := by
  cases signal with
  | none => rfl
  | some signal => simp [told, signals, Event.telling]

theorem signals_rest (i : OpenId) (signal : Option RecoverySignal) :
    probeAsks i (signals i signal) = [] ∧ extraAsks i (signals i signal) = [] ∧
      rejections i (signals i signal) = [] := by
  cases signal <;> exact ⟨rfl, rfl, rfl⟩

/-! ## Where an open stands and what it has done -/

/-- An open that has not settled on a protocol yet: its probe asked for `asked`. -/
def Probing (i : OpenId) (log : List Event) (asked : List Subprotocol) : Prop :=
  probeAsks i log = asked ∧ extraAsks i log = [] ∧ told i log = []

/-- What the log says of an open, by where it stands. -/
def Pc.Story (i : OpenId) (log : List Event) : Pc → Prop
  | .probe => Probing i log [] ∧ rejections i log = []
  | .probing _ _ => Probing i log [.spdy31Tunnel] ∧ rejections i log = []
  | .fallback wsError =>
      Probing i log [.spdy31Tunnel] ∧ (rejections i log).getLast? = statusOf wsError ∧
        TunnelRefused i log
  | .fallingBack wsError _ _ =>
      Probing i log [.spdy31Tunnel, .legacySpdy] ∧
        (rejections i log).getLast? = statusOf wsError ∧ TunnelRefused i log
  | .filling protocol _ _ => told i log = [] ∧ ProbeAccepted i log protocol
  | .failed (.upgrade e) =>
      (Configured e ∧ told i log = []) ∨
        (¬ Configured e ∧
          ∃ message, told i log = [.upgradeFailed (rejections i log).getLast? message])
  | _ => told i log = []

/-- Why an upgrade may be asked for, given what came before. -/
def Upgrade.Grounds (u : Upgrade) (before : List Event) : Prop :=
  match u.who, u.protocol with
  | .probe, .spdy31Tunnel => True
  | .probe, .legacySpdy => TunnelRefused u.opening before
  | .extra _, protocol => ProbeAccepted u.opening before protocol

/-- Every upgrade that `i` asked for had its grounds when it was asked for. -/
def Grounded (i : OpenId) (log : List Event) : Prop :=
  ∀ before c (u : Upgrade) after, log = before ++ .sent c (some u) :: after → u.opening = i →
    u.Grounds before

structure Disciplined (i : OpenId) (o : Opening) (log : List Event) : Prop where
  story : o.pc.Story i log
  probes : probeAsks i log ∈
    [[], [Subprotocol.spdy31Tunnel], [.spdy31Tunnel, .legacySpdy]]
  grounded : Grounded i log
  extras : ∀ x ∈ extraAsks i log, x.1 < o.poolSize - 1
  nodup : ((extraAsks i log).map Prod.fst).Nodup
  waiting : ∀ j : Nat, o.extras[j]? = some .ready → j ∉ (extraAsks i log).map Prod.fst

theorem asks_of_mem {i : OpenId} {log : List Event} {c : ConnId} {u : Upgrade}
    (h : .sent c (some u) ∈ log) (hu : u.opening = i) :
    probeAsks i log ≠ [] ∨ extraAsks i log ≠ [] := by
  obtain ⟨k, who, protocol⟩ := u
  cases hu
  cases who with
  | probe =>
      have hin : protocol ∈ probeAsks k log := by
        refine List.mem_filterMap.mpr ⟨_, h, ?_⟩
        simp [Event.probeAsk]
      exact .inl (List.ne_nil_of_mem hin)
  | extra j =>
      have hin : (j, protocol) ∈ extraAsks k log := by
        refine List.mem_filterMap.mpr ⟨_, h, ?_⟩
        simp [Event.extraAsk]
      exact .inr (List.ne_nil_of_mem hin)

theorem Grounded.append {i : OpenId} {log more : List Event} (h : Grounded i log)
    (hprobe : probeAsks i more = []) (hextra : extraAsks i more = []) :
    Grounded i (log ++ more) := by
  intro before c u after hsplit hu
  rcases split_append hsplit with ⟨rest, hlog⟩ | ⟨first, -, hmore⟩
  · exact h before c u rest hlog hu
  · have hin : .sent c (some u) ∈ more := by
      rw [hmore]
      exact List.mem_append_right _ List.mem_cons_self
    rcases asks_of_mem hin hu with hasks | hasks
    · exact absurd hprobe hasks
    · exact absurd hextra hasks

theorem Grounded.sent {i : OpenId} {log : List Event} {c : ConnId} {u : Upgrade}
    (h : Grounded i log) (hu : u.Grounds log) : Grounded i (log ++ [.sent c (some u)]) := by
  intro before d v after hsplit hv
  rcases split_append hsplit with ⟨rest, hlog⟩ | ⟨first, hbefore, hmore⟩
  · exact h before d v rest hlog hv
  · cases first with
    | nil =>
        cases hmore
        rw [hbefore, List.append_nil]
        exact hu
    | cons x first => simp at hmore

theorem Pc.Story.elsewhere {i : OpenId} {log es : List Event} {pc : Pc} (h : pc.Story i log)
    (hes : Elsewhere i es) : pc.Story i (log ++ es) := by
  have hprobing : ∀ {asked}, Probing i log asked → Probing i (log ++ es) asked := by
    rintro asked ⟨h₁, h₂, h₃⟩
    refine ⟨?_, ?_, ?_⟩
    · rw [probeAsks_append, hes.probe, List.append_nil, h₁]
    · rw [extraAsks_append, hes.extra, List.append_nil, h₂]
    · rw [told_append, hes.telling, List.append_nil, h₃]
  have htold : told i (log ++ es) = told i log := by
    rw [told_append, hes.telling, List.append_nil]
  have hrej : rejections i (log ++ es) = rejections i log := by
    rw [rejections_append, hes.rejection, List.append_nil]
  cases pc with
  | probe => exact ⟨hprobing h.1, hrej.trans h.2⟩
  | probing c answer => exact ⟨hprobing h.1, hrej.trans h.2⟩
  | fallback wsError => exact ⟨hprobing h.1, by rw [hrej]; exact h.2.1, h.2.2.append es⟩
  | fallingBack wsError c answer => exact ⟨hprobing h.1, by rw [hrej]; exact h.2.1, h.2.2.append es⟩
  | filling protocol first succeeded => exact ⟨htold.trans h.1, h.2.append es⟩
  | spawning protocol todo handles lastError => exact htold.trans h
  | opened protocol handles => exact htold.trans h
  | failed e =>
      cases e with
      | upgrade e =>
          show (_ ∧ _) ∨ (_ ∧ _)
          rw [htold, hrej]
          exact h
      | spdy e => exact htold.trans h
  | dropped => exact htold.trans h

theorem Disciplined.elsewhere {i : OpenId} {o : Opening} {log es : List Event}
    (h : Disciplined i o log) (hes : Elsewhere i es) : Disciplined i o (log ++ es) := by
  have hprobe : probeAsks i (log ++ es) = probeAsks i log := by
    rw [probeAsks_append, hes.probe, List.append_nil]
  have hextra : extraAsks i (log ++ es) = extraAsks i log := by
    rw [extraAsks_append, hes.extra, List.append_nil]
  refine ⟨h.story.elsewhere hes, ?_, ?_, ?_, ?_, ?_⟩
  · rw [hprobe]
    exact h.probes
  · exact h.grounded.append hes.probe hes.extra
  · rw [hextra]
    exact h.extras
  · rw [hextra]
    exact h.nodup
  · rw [hextra]
    exact h.waiting

/-- An open moves on without asking for anything. -/
theorem Disciplined.retell {i : OpenId} {o o' : Opening} {log more : List Event}
    (h : Disciplined i o log) (hprobe : probeAsks i more = []) (hextra : extraAsks i more = [])
    (hsize : o'.poolSize = o.poolSize)
    (hwaiting : ∀ j : Nat, o'.extras[j]? = some .ready → j ∉ (extraAsks i log).map Prod.fst)
    (hstory : o'.pc.Story i (log ++ more)) : Disciplined i o' (log ++ more) := by
  have hprobe' : probeAsks i (log ++ more) = probeAsks i log := by
    rw [probeAsks_append, hprobe, List.append_nil]
  have hextra' : extraAsks i (log ++ more) = extraAsks i log := by
    rw [extraAsks_append, hextra, List.append_nil]
  refine ⟨hstory, ?_, ?_, ?_, ?_, ?_⟩
  · rw [hprobe']
    exact h.probes
  · exact h.grounded.append hprobe hextra
  · rw [hextra', hsize]
    exact h.extras
  · rw [hextra']
    exact h.nodup
  · rw [hextra']
    exact hwaiting

theorem ready_of_set {extras : List ExtraPc} {j k : Nat} {x : ExtraPc} (hx : x ≠ .ready)
    (h : (extras.set j x)[k]? = some .ready) : extras[k]? = some .ready := by
  rw [List.getElem?_set] at h
  split at h
  · split at h
    · cases h
      exact absurd rfl hx
    · cases h
  · exact h

/-! ## The moves of an open -/

theorem disciplined_send {i : OpenId} {o o' : Opening} {log : List Event} {c : ConnId}
    {who : Who} {protocol : Subprotocol} (h : Disciplined i o log) (hsized : o.Sized)
    (hsend : o.send c who = some (protocol, o')) :
    Disciplined i o' (log ++ [.sent c (some ⟨i, who, protocol⟩)]) := by
  cases who with
  | probe =>
      have hask : ∀ p, probeAsks i [.sent c (some ⟨i, .probe, p⟩)] = [p] := by
        intro p
        simp [probeAsks, Event.probeAsk]
      simp only [Opening.send] at hsend
      split at hsend
      · next hpc =>
          cases hsend
          have hstory := h.story
          rw [hpc] at hstory
          obtain ⟨⟨hprobe, hextra, htold⟩, hrej⟩ := hstory
          have hprobe' : probeAsks i (log ++ [.sent c (some ⟨i, .probe, .spdy31Tunnel⟩)]) =
              [.spdy31Tunnel] := by
            rw [probeAsks_append, hask, hprobe, List.nil_append]
          have hextra' : extraAsks i (log ++ [.sent c (some ⟨i, .probe, .spdy31Tunnel⟩)]) = [] := by
            rw [extraAsks_append, hextra]
            rfl
          refine ⟨⟨⟨hprobe', hextra', ?_⟩, ?_⟩, ?_, ?_, ?_, ?_, ?_⟩
          · rw [told_append, htold]
            rfl
          · rw [rejections_append, hrej]
            rfl
          · rw [hprobe']
            decide
          · exact h.grounded.sent trivial
          · rw [hextra']
            exact List.forall_mem_nil _
          · rw [hextra']
            exact List.nodup_nil
          · rw [hextra']
            exact fun _ _ => List.not_mem_nil
      · next wsError hpc =>
          cases hsend
          have hstory := h.story
          rw [hpc] at hstory
          obtain ⟨⟨hprobe, hextra, htold⟩, hrej, hrefused⟩ := hstory
          have hprobe' : probeAsks i (log ++ [.sent c (some ⟨i, .probe, .legacySpdy⟩)]) =
              [.spdy31Tunnel, .legacySpdy] := by
            rw [probeAsks_append, hask, hprobe]
            rfl
          have hextra' : extraAsks i (log ++ [.sent c (some ⟨i, .probe, .legacySpdy⟩)]) = [] := by
            rw [extraAsks_append, hextra]
            rfl
          refine ⟨⟨⟨hprobe', hextra', ?_⟩, ?_, hrefused.append _⟩, ?_, ?_, ?_, ?_, ?_⟩
          · rw [told_append, htold]
            rfl
          · rw [rejections_append]
            show (rejections i log ++ []).getLast? = _
            rw [List.append_nil]
            exact hrej
          · rw [hprobe']
            decide
          · exact h.grounded.sent hrefused
          · rw [hextra']
            exact List.forall_mem_nil _
          · rw [hextra']
            exact List.nodup_nil
          · rw [hextra']
            exact fun _ _ => List.not_mem_nil
      · cases hsend
  | extra j =>
      simp only [Opening.send] at hsend
      split at hsend
      · next p first succeeded hpc =>
          split at hsend
          · next hready =>
              cases hsend
              have hstory := h.story
              have hfits := hsized.2
              rw [hpc] at hstory hfits
              have hask : extraAsks i (log ++ [.sent c (some ⟨i, .extra j, protocol⟩)]) =
                  extraAsks i log ++ [(j, protocol)] := by
                rw [extraAsks_append]
                simp [extraAsks, Event.extraAsk]
              have hprobe : probeAsks i (log ++ [.sent c (some ⟨i, .extra j, protocol⟩)]) =
                  probeAsks i log := by
                rw [probeAsks_append]
                simp [probeAsks, Event.probeAsk]
              have hnew := h.waiting j hready
              have hj : j < o.poolSize - 1 := by
                rw [← hfits.1]
                exact (List.getElem?_eq_some_iff.mp hready).1
              refine ⟨?_, ?_, ?_, ?_, ?_, ?_⟩
              · show o.pc.Story i _
                rw [hpc]
                refine ⟨?_, hstory.2.append _⟩
                rw [told_append, hstory.1]
                rfl
              · rw [hprobe]
                exact h.probes
              · exact h.grounded.sent hstory.2
              · rw [hask]
                intro x hx
                rcases List.mem_append.mp hx with hx | hx
                · exact h.extras x hx
                · rw [List.mem_singleton.mp hx]
                  exact hj
              · rw [hask, List.map_append, List.nodup_append]
                refine ⟨h.nodup, List.nodup_singleton _, ?_⟩
                intro a ha b hb hab
                have hb : b = j := List.mem_singleton.mp hb
                rw [hab, hb] at ha
                exact hnew ha
              · rw [hask, List.map_append]
                intro k hk hin
                have hne : k ≠ j := by
                  rintro rfl
                  simp only [Opening.setExtra] at hk
                  rw [List.getElem?_set_self (List.getElem?_eq_some_iff.mp hready).1] at hk
                  cases hk
                rcases List.mem_append.mp hin with hin | hin
                · exact h.waiting k (ready_of_set (x := .inFlight c none) (by simp) hk) hin
                · exact hne (List.mem_singleton.mp hin)
          · cases hsend
      · cases hsend

/-- The first try of a probe has ended, and the log says how. -/
theorem disciplined_probed {i : OpenId} {o o' : Opening} {log more : List Event} {a : Answer}
    {asked : List Subprotocol} {r : Except Error ConnId} {signal : Option RecoverySignal}
    (h : Disciplined i o log) (hasked : Probing i log asked)
    (hprobe : probeAsks i more = []) (hextra : extraAsks i more = []) (htold : told i more = [])
    (hok : ∀ c, r = .ok c → ProbeAccepted i (log ++ more) .spdy31Tunnel)
    (hfails : ∀ e, r = .error e → UpgradeFails a e ∧
      (rejections i (log ++ more)).getLast? = statusOf e ∧
      (shouldFallback e = true → asked = [.spdy31Tunnel] ∧ TunnelRefused i (log ++ more)))
    (hr : o.probed r = (o', signal)) :
    Disciplined i o' (log ++ more ++ signals i signal) := by
  obtain ⟨hasks, hextras, hquiet⟩ := hasked
  have hnone : ∀ (extras : List ExtraPc) (j : Nat), extras[j]? = some .ready →
      j ∉ (extraAsks i (log ++ more)).map Prod.fst := by
    intro extras j _
    rw [extraAsks_append, hextras, hextra]
    exact List.not_mem_nil
  have hbase : Disciplined i { o with pc := .dropped } (log ++ more) := by
    refine h.retell hprobe hextra rfl h.waiting ?_
    show told i (log ++ more) = []
    rw [told_append, hquiet, htold, List.append_nil]
  have hquiet' : told i (log ++ more) = [] := hbase.story
  have hrest := signals_rest i signal
  cases r with
  | ok c =>
      cases hr
      refine hbase.retell hrest.1 hrest.2.1 rfl (hnone _) ⟨?_, (hok c rfl).append _⟩
      rw [told_append, told_signals, hquiet']
      rfl
  | error e =>
      obtain ⟨hwhy, hstatus, hfall⟩ := hfails e rfl
      simp only [Opening.probed] at hr
      split at hr
      · next hshould =>
          cases hr
          obtain ⟨rfl, hrefused⟩ := hfall hshould
          have hnil : log ++ more ++ signals i none = log ++ more := List.append_nil _
          refine hbase.retell hrest.1 hrest.2.1 rfl (hnone _) ?_
          rw [hnil]
          refine ⟨⟨?_, ?_, hquiet'⟩, hstatus, hrefused⟩
          · rw [probeAsks_append, hasks, hprobe, List.append_nil]
          · rw [extraAsks_append, hextras, hextra, List.append_nil]
      · next hshould =>
          cases hr
          obtain ⟨hno, message, hdirect⟩ := directSignal_of_fails hwhy hshould
          refine hbase.retell hrest.1 hrest.2.1 rfl (hnone _) ?_
          refine .inr ⟨hwhy.not_configured, message, ?_⟩
          rw [told_append, told_signals, hquiet', rejections_append, hrest.2.2,
            List.append_nil, hstatus, hno, hdirect]
          rfl

/-- The fallback of a probe has ended, and the log says how. -/
theorem disciplined_fellBack {i : OpenId} {o o' : Opening} {log more : List Event} {a : Answer}
    {asked : List Subprotocol} {wsError : Error} {r : Except Error ConnId}
    {signal : Option RecoverySignal} (h : Disciplined i o log) (hasked : Probing i log asked)
    (hprobe : probeAsks i more = []) (hextra : extraAsks i more = []) (htold : told i more = [])
    (hok : ∀ c, r = .ok c → ProbeAccepted i (log ++ more) .legacySpdy)
    (hfails : ∀ e, r = .error e → UpgradeFails a e ∧
      (rejections i (log ++ more)).getLast? = (statusOf e).or (statusOf wsError))
    (hr : o.fellBack wsError r = (o', signal)) :
    Disciplined i o' (log ++ more ++ signals i signal) := by
  obtain ⟨hasks, hextras, hquiet⟩ := hasked
  have hnone : ∀ (extras : List ExtraPc) (j : Nat), extras[j]? = some .ready →
      j ∉ (extraAsks i (log ++ more)).map Prod.fst := by
    intro extras j _
    rw [extraAsks_append, hextras, hextra]
    exact List.not_mem_nil
  have hbase : Disciplined i { o with pc := .dropped } (log ++ more) := by
    refine h.retell hprobe hextra rfl h.waiting ?_
    show told i (log ++ more) = []
    rw [told_append, hquiet, htold, List.append_nil]
  have hquiet' : told i (log ++ more) = [] := hbase.story
  have hrest := signals_rest i signal
  cases r with
  | ok c =>
      cases hr
      refine hbase.retell hrest.1 hrest.2.1 rfl (hnone _) ⟨?_, (hok c rfl).append _⟩
      rw [told_append, told_signals, hquiet']
      rfl
  | error e =>
      obtain ⟨hwhy, hstatus⟩ := hfails e rfl
      cases hr
      refine hbase.retell hrest.1 hrest.2.1 rfl (hnone _) ?_
      refine .inr ⟨hwhy.not_configured,
        "websocket upgrade rejected (" ++ displayError wsError ++
          "); legacy fallback also failed: " ++ displayError e, ?_⟩
      rw [told_append, told_signals, hquiet', rejections_append, hrest.2.2, List.append_nil,
        hstatus, ← fallbackStatus_of_fails hwhy]
      rfl

theorem elsewhere_extra (i : OpenId) (c : ConnId) (j : Nat) (protocol : Subprotocol) (a : Answer) :
    Elsewhere i [.answered c ⟨i, .extra j, protocol⟩ a] := by
  refine ⟨rfl, rfl, ?_, rfl⟩
  cases a with
  | failed message => rfl
  | response res upgraded => simp [rejections, Event.rejection]

theorem getLast?_rejections {i : OpenId} {log : List Event} {a : Answer} {e : Error}
    (h : UpgradeFails a e) (c : ConnId) (protocol : Subprotocol) :
    (rejections i (log ++ [.answered c ⟨i, .probe, protocol⟩ a])).getLast? =
      (statusOf e).or (rejections i log).getLast? := by
  have hone : rejections i [.answered c ⟨i, .probe, protocol⟩ a] = (statusOf e).toList := by
    rw [← h.rejection i c protocol]
    unfold rejections
    rw [List.filterMap_cons]
    cases (Event.answered c ⟨i, .probe, protocol⟩ a).rejection i <;> rfl
  rw [rejections_append, hone, getLast?_append_toList]

theorem perform_of_map (r : Except Error Unit) (c : ConnId) :
    (∀ c', r.map (fun _ => c) = .ok c' → r = .ok ()) ∧
      ∀ e, r.map (fun _ => c) = .error e → r = .error e := by
  cases r with
  | ok u => exact ⟨fun _ _ => rfl, fun _ h => (by cases h)⟩
  | error e => exact ⟨fun _ h => (by cases h), fun _ h => (by cases h; rfl)⟩

theorem disciplined_answer {i : OpenId} {o o' : Opening} {log : List Event} {a : Answer}
    {who : Who} {c : ConnId} {protocol : Subprotocol} {signal : Option RecoverySignal}
    (h : Disciplined i o log) (hanswer : o.answer who = some (c, protocol, a, o', signal)) :
    Disciplined i o' (log ++ (.answered c ⟨i, who, protocol⟩ a :: signals i signal)) := by
  have hassoc : log ++ (.answered c ⟨i, who, protocol⟩ a :: signals i signal) =
      log ++ [.answered c ⟨i, who, protocol⟩ a] ++ signals i signal := by
    rw [List.append_assoc]
    rfl
  have hlast : ∀ w : Who, Event.answered c ⟨i, w, protocol⟩ a ∈
      log ++ [.answered c ⟨i, w, protocol⟩ a] := fun w => by simp
  rw [hassoc]
  cases who with
  | probe =>
      simp only [Opening.answer] at hanswer
      split at hanswer
      · next d a' hpc =>
          simp only [Option.some.injEq, Prod.mk.injEq] at hanswer
          obtain ⟨rfl, rfl, rfl, hr⟩ := hanswer
          have hstory := h.story
          rw [hpc] at hstory
          refine disciplined_probed (a := a') h hstory.1 rfl rfl rfl ?_ ?_ hr
          · intro c' hc'
            exact ⟨_, a', hlast .probe, (perform_of_map _ _).1 c' hc'⟩
          · intro e he
            have hp := (perform_of_map _ _).2 e he
            have hfails := performWsUpgrade_fails hp
            refine ⟨hfails, ?_, ?_⟩
            · rw [getLast?_rejections hfails, hstory.2]
              cases statusOf e <;> rfl
            · intro hfall
              obtain ⟨res, upgraded, rfl, hwhy⟩ := refused_of_shouldFallback hp hfall
              exact ⟨rfl, _, res, upgraded, hlast .probe, hwhy⟩
      · next wsError d a' hpc =>
          simp only [Option.some.injEq, Prod.mk.injEq] at hanswer
          obtain ⟨rfl, rfl, rfl, hr⟩ := hanswer
          have hstory := h.story
          rw [hpc] at hstory
          refine disciplined_fellBack (a := a') h hstory.1 rfl rfl rfl ?_ ?_ hr
          · intro c' hc'
            exact ⟨_, a', hlast .probe, (perform_of_map _ _).1 c' hc'⟩
          · intro e he
            have hp := (perform_of_map _ _).2 e he
            have hfails := performLegacySpdyUpgrade_fails hp
            refine ⟨hfails, ?_⟩
            rw [getLast?_rejections hfails, hstory.2.1]
      · cases hanswer
  | extra j =>
      simp only [Opening.answer] at hanswer
      split at hanswer
      · next p first succeeded hpc =>
          split at hanswer
          · next d a' hinFlight =>
              simp only [Option.some.injEq, Prod.mk.injEq] at hanswer
              obtain ⟨rfl, rfl, rfl, rfl, rfl⟩ := hanswer
              have hes := elsewhere_extra i d j p a'
              have hnil : ∀ l, l ++ signals i none = l := List.append_nil
              rw [hnil]
              refine h.retell hes.probe hes.extra rfl ?_ (h.story.elsewhere hes)
              exact fun k hk => h.waiting k (ready_of_set (by simp) hk)
          · cases hanswer
      · cases hanswer

theorem disciplined_unsent {i : OpenId} {o o' : Opening} {log : List Event} {message : String}
    {who : Who} {signal : Option RecoverySignal} (h : Disciplined i o log)
    (hunsent : o.unsent message who = some (o', signal)) :
    Disciplined i o' (log ++ signals i signal) := by
  have hnil : log ++ [] ++ signals i signal = log ++ signals i signal := by
    rw [List.append_nil]
  have hkube : UpgradeFails (.failed message) (.kube message) := .unsent message rfl
  cases who with
  | probe =>
      simp only [Opening.unsent] at hunsent
      split at hunsent
      · next hpc =>
          simp only [Option.some.injEq] at hunsent
          have hstory := h.story
          rw [hpc] at hstory
          rw [← hnil]
          refine disciplined_probed (a := .failed message) h hstory.1 rfl rfl rfl
            (fun c hc => by cases hc) ?_ hunsent
          intro e he
          cases he
          refine ⟨hkube, ?_, fun hfall => by cases hfall⟩
          rw [List.append_nil, hstory.2]
          rfl
      · next wsError hpc =>
          simp only [Option.some.injEq] at hunsent
          have hstory := h.story
          rw [hpc] at hstory
          rw [← hnil]
          refine disciplined_fellBack (a := .failed message) h hstory.1 rfl rfl rfl
            (fun c hc => by cases hc) ?_ hunsent
          intro e he
          cases he
          refine ⟨hkube, ?_⟩
          rw [List.append_nil]
          exact hstory.2.1
      · cases hunsent
  | extra j =>
      simp only [Opening.unsent] at hunsent
      split at hunsent
      · simp only [Option.some.injEq, Prod.mk.injEq] at hunsent
        obtain ⟨rfl, rfl⟩ := hunsent
        refine h.retell rfl rfl rfl ?_ (h.story.elsewhere (elsewhere_nil i))
        exact fun k hk => h.waiting k (ready_of_set (by simp) hk)
      · cases hunsent

/-- A move that nobody outside the call can tell. -/
structure Opening.Quiet (o o' : Opening) : Prop where
  size : o'.poolSize = o.poolSize
  ready : ∀ j : Nat, o'.extras[j]? = some .ready → o.extras[j]? = some .ready
  story : ∀ i log, o.pc.Story i log → o'.pc.Story i log

theorem Disciplined.quiet {i : OpenId} {o o' : Opening} {log : List Event}
    (h : Disciplined i o log) (hq : o.Quiet o') : Disciplined i o' log := by
  have hlog : log ++ [] = log := List.append_nil log
  rw [← hlog]
  refine h.retell rfl rfl hq.size (fun j hj => h.waiting j (hq.ready j hj)) ?_
  exact hq.story i _ (h.story.elsewhere (elsewhere_nil i))

theorem quiet_setExtra {o : Opening} {j : Nat} {x : ExtraPc} (hx : x ≠ .ready) :
    o.Quiet (o.setExtra j x) :=
  ⟨rfl, fun _ hk => ready_of_set hx hk, fun _ _ h => h⟩

theorem quiet_arrive {o o' : Opening} {a : Answer} {who : Who} {c : ConnId}
    {protocol : Subprotocol} (h : o.arrive a who = some (c, protocol, o')) : o.Quiet o' := by
  cases who with
  | probe =>
      simp only [Opening.arrive] at h
      split at h
      · next d hpc =>
          cases h
          refine ⟨rfl, fun _ hk => hk, fun i log hstory => ?_⟩
          rw [hpc] at hstory
          exact hstory
      · next wsError d hpc =>
          cases h
          refine ⟨rfl, fun _ hk => hk, fun i log hstory => ?_⟩
          rw [hpc] at hstory
          exact hstory
      · cases h
  | extra j =>
      simp only [Opening.arrive] at h
      split at h
      · split at h
        · cases h
          exact quiet_setExtra (by simp)
        · cases h
      · cases h

theorem quiet_panic {o o' : Opening} {j : Nat} (h : o.panic j = some o') : o.Quiet o' := by
  unfold Opening.panic at h
  split at h
  · cases h
    exact quiet_setExtra (by simp)
  · cases h
    exact quiet_setExtra (by simp)
  · cases h

theorem quiet_join {o o' : Opening} {j : Nat} (h : o.join j = some o') : o.Quiet o' := by
  unfold Opening.join at h
  split at h
  · next protocol first succeeded hpc =>
      split at h
      · cases h
        refine ⟨rfl, fun _ hk => ready_of_set (x := .joined) (by simp) hk, ?_⟩
        intro i log hstory
        rw [hpc] at hstory
        exact hstory
      · cases h
        exact quiet_setExtra (by simp)
      · cases h
        exact quiet_setExtra (by simp)
      · cases h
  · cases h

theorem quiet_joinedAll {o o' : Opening} (h : o.joinedAll = some o') : o.Quiet o' := by
  unfold Opening.joinedAll at h
  split at h
  · next protocol first succeeded hpc =>
      split at h
      · cases h
        refine ⟨rfl, fun _ hk => hk, ?_⟩
        intro i log hstory
        rw [hpc] at hstory
        exact hstory.1
      · cases h
  · cases h

theorem quiet_spawn {o o' : Opening} {result : Except SpawnError Unit}
    (h : o.spawn result = some o') : o.Quiet o' := by
  unfold Opening.spawn at h
  split at h
  · next protocol c todo handles lastError hpc =>
      have hstory : ∀ i log, o.pc.Story i log → told i log = [] := by
        intro i log hstory
        rw [hpc] at hstory
        exact hstory
      split at h
      · cases h
        exact ⟨rfl, fun _ hk => hk, hstory⟩
      · cases h
        exact ⟨rfl, fun _ hk => hk, hstory⟩
  · cases h

theorem quiet_spawnedAll {o o' : Opening} (h : o.spawnedAll = some o') : o.Quiet o' := by
  unfold Opening.spawnedAll at h
  split at h
  · next protocol handles lastError hpc =>
      have hstory : ∀ i log, o.pc.Story i log → told i log = [] := by
        intro i log hstory
        rw [hpc] at hstory
        exact hstory
      split at h
      · cases h
        exact ⟨rfl, fun _ hk => hk, hstory⟩
      · cases h
        exact ⟨rfl, fun _ hk => hk, hstory⟩
  · cases h

/-- A call that has not failed has told nobody anything. -/
theorem Pc.Story.untold {i : OpenId} {log : List Event} {pc : Pc} (h : pc.Story i log)
    (hpc : ∀ e, pc ≠ .failed e) : told i log = [] := by
  cases pc with
  | probe => exact h.1.2.2
  | probing c answer => exact h.1.2.2
  | fallback wsError => exact h.1.2.2
  | fallingBack wsError c answer => exact h.1.2.2
  | filling protocol first succeeded => exact h.1
  | spawning protocol todo handles lastError => exact h
  | opened protocol handles => exact h
  | failed e => exact absurd rfl (hpc e)
  | dropped => exact h

theorem quiet_abandon {o o' : Opening} (h : o.abandon = some o') : o.Quiet o' := by
  unfold Opening.abandon at h
  split at h
  · cases h
  · cases h
  · cases h
  · next hfailed _ =>
      cases h
      refine ⟨rfl, fun j hj => (by cases hj), ?_⟩
      exact fun i log hstory => hstory.untold hfailed

/-! ## Every run -/

structure Negotiated (s : State) : Prop where
  disciplined : ∀ (i : OpenId) o, s.opens[i]? = some o → Disciplined i o s.log
  unborn : ∀ i, s.opens.length ≤ i → Elsewhere i s.log

/-- One open moves on, and what is logged is about it. -/
theorem Negotiated.set {s s' : State} {i : OpenId} {o o' : Opening} {more : List Event}
    (hs : Negotiated s) (ho : s.opens[i]? = some o) (hopens : s'.opens = s.opens.set i o')
    (hlog : s'.log = s.log ++ more) (hmove : Disciplined i o' (s.log ++ more))
    (hmore : ∀ k, i ≠ k → Elsewhere k more) : Negotiated s' := by
  have hi : i < s.opens.length := (List.getElem?_eq_some_iff.mp ho).1
  refine ⟨?_, ?_⟩
  · intro k o₁ ho₁
    rw [hopens] at ho₁
    rw [hlog]
    by_cases hk : i = k
    · subst hk
      rw [List.getElem?_set_self hi] at ho₁
      cases ho₁
      exact hmove
    · rw [List.getElem?_set_ne hk] at ho₁
      exact (hs.disciplined k o₁ ho₁).elsewhere (hmore k hk)
  · intro k hk
    rw [hopens, List.length_set] at hk
    rw [hlog]
    exact (hs.unborn k hk).append (hmore k (Nat.ne_of_lt (Nat.lt_of_lt_of_le hi hk)))

theorem Negotiated.mono {s s' : State} {more : List Event} (hs : Negotiated s)
    (hopens : s'.opens = s.opens) (hlog : s'.log = s.log ++ more)
    (hmore : ∀ k, Elsewhere k more) : Negotiated s' := by
  refine ⟨?_, ?_⟩
  · rw [hopens, hlog]
    exact fun k o ho => (hs.disciplined k o ho).elsewhere (hmore k)
  · rw [hopens, hlog]
    exact fun k hk => (hs.unborn k hk).append (hmore k)

theorem disciplined_start (cluster : Cluster) (b : SessionBuilder) {i : OpenId}
    {log : List Event} (h : Elsewhere i log) : Disciplined i (.start cluster b) log := by
  refine ⟨?_, ?_, ?_, ?_, ?_, ?_⟩
  · rcases start_pc cluster b with hpc | ⟨e, huri, hpc⟩
    · rw [hpc]
      exact ⟨⟨h.probe, h.extra, h.telling⟩, h.rejection⟩
    · rw [hpc]
      exact .inl ⟨portforwardUri_error huri, h.telling⟩
  · rw [h.probe]
    exact List.mem_cons_self
  · intro before c u after hlog hu
    have hin : .sent c (some u) ∈ log := by
      rw [hlog]
      exact List.mem_append_right _ List.mem_cons_self
    rcases asks_of_mem hin hu with hasks | hasks
    · exact absurd h.probe hasks
    · exact absurd h.extra hasks
  · rw [h.extra]
    exact List.forall_mem_nil _
  · rw [h.extra]
    exact List.nodup_nil
  · rw [h.extra]
    exact fun _ _ => List.not_mem_nil

theorem negotiated_openSession {cluster : Cluster} {s : State} (hs : Negotiated s)
    (b : SessionBuilder) : Negotiated { s with opens := s.opens ++ [.start cluster b] } := by
  refine ⟨?_, ?_⟩
  · intro k o ho
    rw [List.getElem?_append] at ho
    split at ho
    · exact hs.disciplined k o ho
    · next hk =>
        rw [List.mem_singleton.mp (List.mem_of_getElem? ho)]
        exact disciplined_start cluster b (hs.unborn k (Nat.le_of_not_lt hk))
  · intro k hk
    refine hs.unborn k (Nat.le_trans ?_ hk)
    simp

/-- The step of an open that moves on by itself. -/
theorem Negotiated.advance {s s' : State} {i : OpenId} {move : Opening → Option Opening}
    (hs : Negotiated s) (hmove : ∀ o o', move o = some o' → o.Quiet o')
    (h : s.advance i move = some s') : Negotiated s' := by
  unfold State.advance at h
  split at h
  · next o ho =>
      rw [Option.map_eq_some_iff] at h
      obtain ⟨o', hmoved, rfl⟩ := h
      refine hs.set ho rfl (List.append_nil _).symm ?_ fun k _ => elsewhere_nil k
      rw [List.append_nil]
      exact (hs.disciplined i o ho).quiet (hmove o o' hmoved)
  · cases h

/-- The step of an open that gives up requests of its own. -/
theorem Negotiated.quits {s s' : State} {i : OpenId} {move : Opening → Option Opening}
    {whose : Upgrade → Bool} (hs : Negotiated s)
    (hmove : ∀ o o', move o = some o' → o.Quiet o')
    (h : (s.advance i move).map (fun s' => s'.giveUp whose) = some s') : Negotiated s' := by
  rw [Option.map_eq_some_iff] at h
  obtain ⟨s₁, hadvance, rfl⟩ := h
  exact (hs.advance hmove hadvance).mono rfl (List.append_nil _).symm elsewhere_nil

theorem negotiated_setUse {s : State} (hs : Negotiated s) (c : ConnId) (use : ConnUse) :
    Negotiated (s.setUse c use) :=
  hs.mono rfl (List.append_nil _).symm elsewhere_nil

theorem negotiated (cluster : Cluster) : (negotiation cluster).Invariant anyStep Negotiated := by
  refine Invariant.of_step_using (owned_invariant cluster) ?_ ?_
  · exact ⟨fun i o ho => by simp [negotiation] at ho, fun i _ => elsewhere_nil i⟩
  intro s a s' howned hs _ h
  replace h : step cluster s a = some s' := h
  cases a with
  | openSession b =>
      cases h
      exact negotiated_openSession hs b
  | send i who conn =>
      simp only [step] at h
      split at h
      · next o c s₁ ho htake =>
          rw [Option.map_eq_some_iff] at h
          obtain ⟨⟨protocol, o'⟩, hsend, rfl⟩ := h
          have htakes := takes_of_take htake
          have hopens : s₁.opens.set i o' = s.opens.set i o' := by rw [htakes.opens]
          have hlog : s₁.log ++ [.sent c (some ⟨i, who, protocol⟩)] =
              s.log ++ [.sent c (some ⟨i, who, protocol⟩)] := by rw [htakes.log]
          exact hs.set ho hopens hlog
            (disciplined_send (hs.disciplined i o ho) (howned.sized i o ho) hsend)
            fun k hk => elsewhere_sent hk c who protocol
      · cases h
  | arrive i who a =>
      simp only [step] at h
      split at h
      · next o ho =>
          rw [Option.map_eq_some_iff] at h
          obtain ⟨⟨c, protocol, o'⟩, harrive, rfl⟩ := h
          have hmove := ((hs.disciplined i o ho).quiet (quiet_arrive harrive)).elsewhere
            (elsewhere_arrived i c ⟨i, who, protocol⟩ a)
          refine hs.set ho ?_ ?_ hmove fun k _ => elsewhere_arrived k c _ a
          · show (s.handBack c _ a).opens.set i o' = _
            rw [(handBack_rest s c _ a).1]
          · show (s.handBack c _ a).log ++ _ = _
            rw [(handBack_rest s c _ a).2]
      · cases h
  | answer i who =>
      simp only [step] at h
      split at h
      · next o ho =>
          rw [Option.map_eq_some_iff] at h
          obtain ⟨⟨c, protocol, a, o', signal⟩, hanswer, rfl⟩ := h
          refine hs.set ho ?_ ?_ (disciplined_answer (hs.disciplined i o ho) hanswer) ?_
          · show (s.settle c a).opens.set i o' = _
            rw [(settle_rest s c a).1]
          · show (s.settle c a).log ++ _ = _
            rw [(settle_rest s c a).2]
          · intro k hk
            exact (elsewhere_answered hk c who protocol a).append (elsewhere_signals hk signal)
      · cases h
  | unsent i who message =>
      simp only [step] at h
      split at h
      · next o ho =>
          rw [Option.map_eq_some_iff] at h
          obtain ⟨⟨o', signal⟩, hunsent, rfl⟩ := h
          exact hs.set ho rfl rfl (disciplined_unsent (hs.disciplined i o ho) hunsent)
            fun k hk => elsewhere_signals hk signal
      · cases h
  | panic i j => exact hs.quits (fun _ _ => quiet_panic) h
  | join i j => exact hs.advance (fun _ _ => quiet_join) h
  | joinedAll i => exact hs.advance (fun _ _ => quiet_joinedAll) h
  | spawn i result => exact hs.advance (fun _ _ => quiet_spawn) h
  | spawnedAll i => exact hs.advance (fun _ _ => quiet_spawnedAll) h
  | abandon i => exact hs.quits (fun _ _ => quiet_abandon) h
  | otherSend conn =>
      simp only [step, Option.map_eq_some_iff, Prod.exists] at h
      obtain ⟨c, s₁, htake, rfl⟩ := h
      have htakes := takes_of_take htake
      have hlog : s₁.log ++ [.sent c none] = s.log ++ [.sent c none] := by rw [htakes.log]
      exact hs.mono htakes.opens hlog fun k => elsewhere_other k c
  | otherDone c =>
      simp only [step] at h
      split at h
      · cases h
        exact negotiated_setUse hs c .idle
      · cases h
  | release c =>
      simp only [step] at h
      split at h
      · cases h
        exact negotiated_setUse hs c .idle
      · cases h
  | close c =>
      simp only [step] at h
      split at h
      · cases h
        exact negotiated_setUse hs c .gone
      · cases h

/-- Indices below a bound, each at most once, are at most as many as the bound. -/
theorem length_le_of_nodup_lt {l : List Nat} {n : Nat} (hnodup : l.Nodup) (h : ∀ j ∈ l, j < n) :
    l.length ≤ n := by
  have hsub : l ⊆ List.range n := fun j hj => List.mem_range.mpr (h j hj)
  have := (List.subperm_of_subset hnodup hsub).length_le
  rwa [List.length_range] at this

/-- However the opens of a client are interleaved and whatever the apiserver answers,
one open asks for the tunnel at most once, then for the legacy upgrade at most once
and only when the tunnel had been refused by then; each further connection of its pool
is asked for at most once, and only in a protocol in which its own probe had been
accepted by then.  So it makes at most one request more than its pool is to hold. -/
theorem negotiation_disciplined (cluster : Cluster) (as : List Act) (s : State)
    (h : (negotiation cluster).run (negotiation cluster).init as = some s)
    (i : OpenId) (o : Opening) (ho : s.opens[i]? = some o) :
    (probeAsks i s.log = [] ∨ probeAsks i s.log = [.spdy31Tunnel] ∨
        probeAsks i s.log = [.spdy31Tunnel, .legacySpdy]) ∧
      (∀ before c (u : Upgrade) after, s.log = before ++ .sent c (some u) :: after →
        u.opening = i → u.Grounds before) ∧
      ((extraAsks i s.log).map Prod.fst).Nodup ∧
      (probeAsks i s.log).length + (extraAsks i s.log).length ≤ o.poolSize + 1 := by
  have hdisciplined := (negotiated cluster as s h (meets_anyStep _ _)).disciplined i o ho
  have hpos := ((owned_invariant cluster as s h (meets_anyStep _ _)).sized i o ho).1
  have hprobes : probeAsks i s.log = [] ∨ probeAsks i s.log = [.spdy31Tunnel] ∨
      probeAsks i s.log = [.spdy31Tunnel, .legacySpdy] := by
    simpa using hdisciplined.probes
  refine ⟨hprobes, hdisciplined.grounded, hdisciplined.nodup, ?_⟩
  have hextras : (extraAsks i s.log).length ≤ o.poolSize - 1 := by
    have hlt : ∀ j ∈ (extraAsks i s.log).map Prod.fst, j < o.poolSize - 1 := by
      intro j hj
      obtain ⟨x, hx, rfl⟩ := List.mem_map.mp hj
      exact hdisciplined.extras x hx
    simpa using length_le_of_nodup_lt hdisciplined.nodup hlt
  have hlen : (probeAsks i s.log).length ≤ 2 := by
    rcases hprobes with hp | hp | hp <;> rw [hp] <;> decide
  omega

/-- The legacy probe had the refusal of the tunnel before it. -/
theorem legacy_probe_grounded :
    ∃ s o, (negotiation testCluster).run (negotiation testCluster).init legacyActs = some s ∧
      s.opens[0]? = some o ∧ (probeAsks 0 s.log).length + (extraAsks 0 s.log).length = 4 ∧
      (probeAsks 0 s.log).length + (extraAsks 0 s.log).length ≤ o.poolSize + 1 := by
  have hobs : ((negotiation testCluster).run (negotiation testCluster).init legacyActs).map
      (fun s => (s.opens.length,
        (probeAsks 0 s.log).length + (extraAsks 0 s.log).length)) = some (1, 4) := by
    decide +kernel
  obtain ⟨s, hrun, hcounts⟩ := Option.map_eq_some_iff.mp hobs
  obtain ⟨hlen, hcount⟩ := Prod.mk.inj hcounts
  have ho : s.opens[0]? = some s.opens[0] := List.getElem?_eq_getElem _
  exact ⟨s, _, hrun, ho, hcount,
    (negotiation_disciplined testCluster legacyActs s hrun 0 _ ho).2.2.2⟩

/-- A recovery callback hears of an open exactly when its probe failed for another
reason than its configuration, and then once, with the status of the last upgrade that
the apiserver turned down. -/
theorem failures_signalled_once (cluster : Cluster) (as : List Act) (s : State)
    (h : (negotiation cluster).run (negotiation cluster).init as = some s)
    (i : OpenId) (o : Opening) (ho : s.opens[i]? = some o) :
    (∀ e, o.pc = .failed (.upgrade e) → ¬ Configured e →
      ∃ message, told i s.log = [.upgradeFailed (rejections i s.log).getLast? message]) ∧
      ((∀ e, o.pc = .failed (.upgrade e) → Configured e) → told i s.log = []) := by
  have hstory := ((negotiated cluster as s h (meets_anyStep _ _)).disciplined i o ho).story
  refine ⟨?_, ?_⟩
  · intro e hpc hother
    rw [hpc] at hstory
    rcases hstory with hconfigured | hfailed
    · exact absurd hconfigured.1 hother
    · exact hfailed.2
  · intro hconfigured
    by_cases hfailed : ∃ e, o.pc = .failed e
    · obtain ⟨e, hpc⟩ := hfailed
      rw [hpc] at hstory
      cases e with
      | upgrade e =>
          rcases hstory with htold | hsignalled
          · exact htold.2
          · exact absurd (hconfigured e hpc) hsignalled.1
      | spdy e => exact hstory
    · exact hstory.untold fun e hpc => hfailed ⟨e, hpc⟩

def forbidden : Answer := .response { status := 403, headers := [] } (.error "no upgrade")

/-- Neither protocol is to be had, and the last word was that access is forbidden. -/
def refusedActs : List Act :=
  [.openSession (SessionBuilder.new "default" "web-0" 8080), .send 0 .probe none,
    .arrive 0 .probe notFound, .answer 0 .probe, .send 0 .probe none,
    .arrive 0 .probe forbidden, .answer 0 .probe]

theorem failures_signalled_once_forbidden :
    ∃ s message, (negotiation testCluster).run (negotiation testCluster).init refusedActs = some s ∧
      told 0 s.log = [.upgradeFailed (some 403) message] := by
  have hobs : ((negotiation testCluster).run (negotiation testCluster).init refusedActs).map
      (fun s => (s.opens.map Opening.pc, (rejections 0 s.log).getLast?)) =
        some ([.failed (.upgrade (.upgradeFailed (some 403)
          "legacy SPDY upgrade: expected 101, got 403"))], some 403) := by
    decide +kernel
  obtain ⟨s, hrun, hpcs⟩ := Option.map_eq_some_iff.mp hobs
  obtain ⟨hpcs, hlast⟩ := Prod.mk.inj hpcs
  have hpc : (s.opens[0]?).map Opening.pc = some (.failed (.upgrade (.upgradeFailed (some 403)
      "legacy SPDY upgrade: expected 101, got 403"))) := by
    rw [← List.getElem?_map, hpcs]
    rfl
  obtain ⟨o, ho, hpc⟩ := Option.map_eq_some_iff.mp hpc
  have hother : ¬ Configured (.upgradeFailed (some 403)
      "legacy SPDY upgrade: expected 101, got 403") := by
    rintro ⟨message, hmessage⟩
    cases hmessage
  obtain ⟨message, htold⟩ :=
    (failures_signalled_once testCluster refusedActs s hrun 0 o ho).1 _ hpc hother
  rw [hlast] at htold
  exact ⟨s, message, hrun, htold⟩

end KubePortForward.Connect
