import DodgeClock.Transitions
import DodgeClock.CText

/-!
# The link status and its text

DCLK.c counts its connections in `dclk_status`, and every iteration of dclk_app turns
that status into the text of one character it shows. The counter is right as long as
it does not wrap. The text is not contained in its variable: sprintf writes the digits
of the counter and a terminating zero into a single `char`.
-/
namespace DodgeClock
open EventSystem CText

/-- `struct dclk_info`. -/
structure DclkInfo where
  numConn : ℕ
  pairEn : Bool
  deriving DecidableEq, Repr

namespace DclkInfo

/-- on_connected; the counter is a `uint8_t`. -/
def onConnected (err : ℕ) (info : DclkInfo) : DclkInfo :=
  if err ≠ 0 then info else { info with numConn := (info.numConn + 1) % 256 }

def onDisconnected (info : DclkInfo) : DclkInfo :=
  { info with numConn := (info.numConn + 255) % 256 }

/-- The text sprintf formats into dis_status, if dclk_app calls it. -/
def formatted (info : DclkInfo) : Option (List Char) :=
  if info.pairEn = true then none else some (decimal info.numConn)

/-- The character dclk_app reads back from dis_status. -/
def disStatus (info : DclkInfo) : Char :=
  if info.pairEn = true then 'P' else store (decimal info.numConn) 0 (fun _ => nul) 0

end DclkInfo

/-- `dclk_status`, and the number of links that are open. -/
structure LinkStatus where
  info : DclkInfo
  links : ℕ
  deriving DecidableEq, Repr

def LinkStatus.boot : LinkStatus := ⟨⟨0, false⟩, 0⟩

/-- `pairing` is a call of dclk_pairing and `iterate` an iteration of dclk_app. -/
inductive LinkEvent where
  | connected (err : ℕ)
  | disconnected
  | pairing (enable : Bool)
  | iterate
  deriving DecidableEq, Repr

/-- Each disconnection ends a link that is open. -/
def linkStatus : Machine LinkStatus LinkEvent where
  step
    | s, .connected err =>
        some ⟨s.info.onConnected err, if err ≠ 0 then s.links else s.links + 1⟩
    | s, .disconnected =>
        if 0 < s.links then some ⟨s.info.onDisconnected, s.links - 1⟩ else none
    | s, .pairing enable => some { s with info := { s.info with pairEn := enable } }
    | s, .iterate => some s

/-- sizeof(dis_status). -/
def disStatusSize : ℕ := 1

/-- What an iteration formats stays inside dis_status, and so its neighbours in memory
keep their values, wherever dis_status lies. -/
def Contained (s : LinkStatus) : LinkEvent → Prop
  | .iterate => ∀ text, s.info.formatted = some text → FitsIn text disStatusSize ∧
      ∀ dst mem i, i < dst ∨ dst + disStatusSize ≤ i → store text dst mem i = mem i
  | _ => True

/-- dclk_app formats nothing, and the counter has room for one more link. -/
def LinkEvent.Harmless (s : LinkStatus) : LinkEvent → Prop
  | .iterate => s.info.pairEn = true
  | .connected err => err = 0 → s.links < 255
  | _ => True

instance LinkEvent.Harmless.decidable (s : LinkStatus) :
    (e : LinkEvent) → Decidable (LinkEvent.Harmless s e)
  | .iterate => inferInstanceAs (Decidable (_ = _))
  | .connected err => inferInstanceAs (Decidable (err = 0 → s.links < 255))
  | .disconnected | .pairing _ => .isTrue trivial

theorem contained_iterate_iff_fits {s : LinkStatus} :
    Contained s .iterate ↔ ∀ text, s.info.formatted = some text → FitsIn text disStatusSize := by
  simp only [Contained, keeps_neighbours_iff, and_self]

/-- A digit and the terminating zero never fit. -/
theorem contained_iterate {s : LinkStatus} : Contained s .iterate ↔ s.info.pairEn = true := by
  rw [contained_iterate_iff_fits]
  constructor
  · intro h
    by_contra hoff
    have hfit := h (decimal s.info.numConn) (if_neg hoff)
    have hpos := List.length_pos_iff.mpr (decimal_ne_nil (v := s.info.numConn))
    unfold FitsIn disStatusSize at hfit
    omega
  · intro hon text htext
    simp [DclkInfo.formatted, hon] at htext

/-- Whatever happens, the counter is the number of open links as far as a `uint8_t` can
hold it. -/
theorem numConn_step {s t : LinkStatus} {e : LinkEvent} (hs : s.info.numConn = s.links % 256)
    (h : linkStatus.step s e = some t) : t.info.numConn = t.links % 256 := by
  cases e with
  | connected err =>
      obtain rfl := Option.some.inj h
      by_cases herr : err = 0
      · simp only [DclkInfo.onConnected, herr, hs, ne_eq, not_true_eq_false, if_false]
        omega
      · simpa [DclkInfo.onConnected, herr] using hs
  | disconnected =>
      simp only [linkStatus, Option.ite_none_right_eq_some, Option.some.injEq] at h
      obtain ⟨hpos, rfl⟩ := h
      simp only [DclkInfo.onDisconnected, hs]
      omega
  | pairing enable | iterate =>
      obtain rfl := Option.some.inj h
      exact hs

/-- Only one link more than 255 is out of reach of the counter. -/
theorem links_step {s t : LinkStatus} {e : LinkEvent} (hrange : s.links < 256)
    (h : linkStatus.step s e = some t) :
    t.links < 256 ↔ (e = .connected 0 → s.links < 255) := by
  cases e with
  | connected err =>
      obtain rfl := Option.some.inj h
      by_cases herr : err = 0
      · simp only [herr, ne_eq, not_true_eq_false, if_false, true_imp_iff]
        omega
      · simp [herr, hrange]
  | disconnected =>
      simp only [linkStatus, Option.ite_none_right_eq_some, Option.some.injEq] at h
      obtain ⟨-, rfl⟩ := h
      simp only [reduceCtorEq, false_imp_iff, iff_true]
      omega
  | pairing enable | iterate =>
      obtain rfl := Option.some.inj h
      simp [hrange]

theorem harmless_iff {s : LinkStatus} {e : LinkEvent} :
    e.Harmless s ↔ (e = .connected 0 → s.links < 255) ∧ Contained s e := by
  cases e with
  | iterate => simp [LinkEvent.Harmless, contained_iterate]
  | connected err => simp [LinkEvent.Harmless, Contained]
  | disconnected | pairing enable => simp [LinkEvent.Harmless, Contained]

theorem linkStatus_step {s t : LinkStatus} {e : LinkEvent} (hrange : s.links < 256)
    (hs : s.info.numConn = s.links) (h : linkStatus.step s e = some t) :
    t.info.numConn = t.links ∧ Contained s e ↔ e.Harmless s := by
  have hmod := numConn_step (hs.trans (Nat.mod_eq_of_lt hrange).symm) h
  have hcount : t.info.numConn = t.links ↔ t.links < 256 := by omega
  rw [hcount, links_step hrange h, harmless_iff]

theorem numConn_eq_mod {es : List LinkEvent} {s : LinkStatus}
    (hrun : linkStatus.run .boot es = some s) : s.info.numConn = s.links % 256 :=
  Machine.run_invariant' (I := fun s => s.info.numConn = s.links % 256)
    (fun _ _ _ hs h => numConn_step hs h) hrun rfl

/-- Over any events, num_conn is the number of open links and every text stays inside
dis_status exactly if dclk_app only runs while pair_en is set and no more than 255 links
are ever open. -/
theorem contained_iff (es : List LinkEvent) (s : LinkStatus)
    (hrun : linkStatus.run .boot es = some s) :
    (∀ v ∈ linkStatus.visited .boot es, v.info.numConn = v.links) ∧
        linkStatus.Meets Contained .boot es ↔
      linkStatus.Meets (fun s e => e.Harmless s) .boot es :=
  Machine.stays_iff_meets (I := fun s => s.links < 256)
    (fun _ _ _ hrange _ hok h => (links_step hrange h).mpr (harmless_iff.mp hok).1)
    (fun _ _ _ hrange hs h => linkStatus_step hrange hs h) hrun (by decide) rfl

/-- Two displays are paired while dclk_app runs, and one attempt to connect fails. -/
def pairingEvents : List LinkEvent :=
  [.pairing true, .iterate, .connected 0, .connected 2, .connected 0, .iterate, .disconnected]

theorem contained_pairingEvents :
    ∃ s, linkStatus.run .boot pairingEvents = some s ∧
      (∀ v ∈ linkStatus.visited .boot pairingEvents, v.info.numConn = v.links) ∧
        linkStatus.Meets Contained .boot pairingEvents :=
  ⟨_, rfl, (contained_iff pairingEvents _ rfl).mpr (by decide)⟩

/-- The first iteration already writes two bytes, '0' and the terminating zero. -/
theorem not_contained :
    ¬ ∀ (es : List LinkEvent) (s : LinkStatus), linkStatus.run .boot es = some s →
      (∀ v ∈ linkStatus.visited .boot es, v.info.numConn = v.links) ∧
        linkStatus.Meets Contained .boot es := by
  intro h
  have hall := (h [.iterate] _ rfl).2.head
  exact absurd (hall ['0'] (by decide)).1 (by decide)

section Controller

/-- The link status of the controller, which has one link at most. -/
def State.linkStatus (s : State) : LinkStatus :=
  ⟨⟨s.link.numConn, s.link.pairEn⟩, if s.link.peer = none then 0 else 1⟩

/-- What an event of the controller is for its link status. A statement counts if it is
the assignment of pair_en in dclk_pairing. -/
def linkEvent (s : State) : Event → Option LinkEvent
  | .connected _ _ => some (.connected 0)
  | .connectFailed _ => some (.connected 1)
  | .disconnected => some .disconnected
  | .stmt _ =>
      if s.worker = some ⟨.button .pair, 2⟩ ∧ (s.btns .pair).evt < 2 then
        some (.pairing (decide ((s.btns .pair).evt = 1)))
      else none
  | _ => none

theorem exec_linkStatus {st : LinkStmt} (h : ∀ enable, st ≠ .setPairEn enable) (r : BtResults)
    (s : State) : State.linkStatus { s with link := s.link.exec r st } = s.linkStatus := by
  have hnum : (s.link.exec r st).numConn = s.link.numConn := by
    cases st <;> simp only [Link.exec, Link.advStart_eq, setupAcceptList]
    all_goals split_ifs <;> rfl
  simp [State.linkStatus, hnum, Link.exec_pairEn h]

theorem linkStatus_refined : Refines controller DodgeClock.linkStatus (fun _ => True)
    State.linkStatus linkEvent where
  keeps _ _ := trivial
  stutters := by
    intro s t e _ h hg
    cases step_inv h
    case setPairEn r enable hw he => cases enable <;> simp [linkEvent, hw, he] at hg
    case pairDCLK r pc st hw ha => exact exec_linkStatus (by cases ha <;> simp) r s
    case advertiseDCLK r pc st hw ha => exact exec_linkStatus (by cases ha <;> simp) r s
    case bonded a hp => rfl
    case connected | connectFailed | disconnected => simp [linkEvent] at hg
    all_goals rfl
  steps := by
    intro s t e k _ h hg
    cases step_inv h
    case connected peer kept hw hp =>
      obtain rfl := Option.some.inj hg
      simp [DodgeClock.linkStatus, State.linkStatus, DclkInfo.onConnected, Link.onConnected, hp]
    case connectFailed kept hw hp =>
      obtain rfl := Option.some.inj hg
      rfl
    case disconnected hw hp =>
      obtain rfl := Option.some.inj hg
      simp [DodgeClock.linkStatus, State.linkStatus, DclkInfo.onDisconnected,
        Link.onDisconnected, hp]
    case setPairEn r enable hw he =>
      cases enable <;> simp [linkEvent, hw, he] at hg <;> subst hg <;> rfl
    case stopSleep r b pc hw ha =>
      -- pair_cb goes straight to k_timer_stop only for an event it does not know
      cases ha <;> simp [linkEvent, hw] at hg
      omega
    -- no other statement is the assignment of pair_en
    all_goals simp_all [linkEvent]

/-- In every reachable state the controller counts the link it has. -/
theorem numConn_of_run {bonds acceptList : List Addr} {es : List Event} {s : State}
    (hrun : controller.run (boot bonds acceptList) es = some s) :
    s.link.numConn = if s.link.peer = none then 0 else 1 := by
  have hstatus := linkStatus_refined.run trivial hrun
  have hmod := numConn_eq_mod hstatus
  simp only [State.linkStatus] at hmod
  split_ifs at hmod ⊢ <;> omega

end Controller
end DodgeClock
