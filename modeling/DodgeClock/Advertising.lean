import DodgeClock.ButtonDelivery

/-!
# What the controller advertises once the queue has drained

pair_en follows the last level of the pair button. While it is false, the last work
item to touch the advertiser is advertise_DCLK: nothing is open to unknown displays,
and a bonded display that is not connected can connect again.
-/
namespace DodgeClock
open EventSystem OnceQueue

/-- No work item is queued or running. -/
def Drained (s : State) : Prop := s.queue = [] ∧ s.worker = none

instance (s : State) : Decidable (Drained s) := inferInstanceAs (Decidable (_ ∧ _))

section Level

/-- pair_en is what the last event of the pair button asked for, except while pair_cb is
being called. -/
structure FollowsEvent (s : State) : Prop where
  range : (s.btns .pair).evt ≤ 1
  follows : s.worker ≠ some ⟨.button .pair, 1⟩ → s.worker ≠ some ⟨.button .pair, 2⟩ →
    (s.link.pairEn = true ↔ (s.btns .pair).evt = 1)

theorem followsEvent_boot (bonds acceptList : List Addr) : FollowsEvent (boot bonds acceptList) :=
  ⟨Nat.zero_le 1, by simp [boot, Link.boot, Btn.initial]⟩

theorem followsEvent_step {s t : State} {e : Event} (hi : FollowsEvent s) (h : Step s e t) :
    FollowsEvent t := by
  obtain ⟨hle, hfol⟩ := hi
  cases h
  case edge b level => exact ⟨by simpa using hle, by simpa using hfol⟩
  case readVal r b hw =>
    by_cases hb : b = .pair
    · subst hb
      have h01 := evtOf_zero_or_one (s.btns .pair).val
      refine ⟨?_, fun h1 => absurd rfl h1⟩
      simp only [Function.update_self, Btn.readVal]
      omega
    · simp only [hw] at hfol
      exact ⟨by simpa [Ne.symm hb] using hle, by simpa [hb, Ne.symm hb] using hfol⟩
  case setPairEn r enable hw he =>
    refine ⟨hle, fun _ _ => ?_⟩
    cases enable <;> simp [Link.exec, he]
  case stopSleep r b pc hw ha =>
    refine ⟨hle, fun _ _ => hfol ?_ ?_⟩
    · rw [hw]
      rintro ⟨⟩
      cases ha
    · -- pair_cb does nothing else only for an event that no level gives
      rw [hw]
      rintro ⟨⟩
      cases ha with
      | pairIgnore h2 => omega
  case pairDCLK r pc st hw ha | advertiseDCLK r pc st hw ha =>
    have hen : (s.link.exec r st).pairEn = s.link.pairEn :=
      Link.exec_pairEn (by cases ha <;> simp) r s.link
    refine ⟨hle, fun _ _ => ?_⟩
    rw [hen]
    exact hfol (by simp [hw]) (by simp [hw])
  case callActiveEmpty r b hw ha =>
    have hb : b ≠ .pair := by rcases user_or_stop_of_empty ha with rfl | rfl <;> simp
    exact ⟨hle, fun _ _ => hfol (by simp [hw, hb]) (by simp [hw])⟩
  all_goals exact ⟨hle, by simp_all⟩

theorem pairEn_iff_of_drained {bonds acceptList : List Addr} {es : List Event} {s : State}
    (hrun : controller.run (boot bonds acceptList) es = some s) (hd : Drained s) :
    s.link.pairEn = true ↔ ∃ level, lastLevel .pair s.hist = some level ∧ level ≠ 0 := by
  have hinv : FollowsEvent s :=
    Machine.run_invariant' (fun _ _ _ hi h => followsEvent_step hi (step_inv h)) hrun
      (followsEvent_boot bonds acceptList)
  obtain ⟨hq, hw⟩ := hd
  rw [hinv.follows (by simp [hw]) (by simp [hw])]
  exact evt_of_done .pair hrun (by simp [hq]) (by simp [hw])

end Level

section LastItem
variable {ok : Link → BtResults → Prop} {before : ℕ → Link → Prop} {done : Link → Prop}

/-- advertise_DCLK achieves `done`, provided `ok` holds of the results of its calls;
`before pc` is what holds when its statement `pc` is next. Until pair_DCLK runs,
nothing but a new connection or bond changes the link. -/
structure Achieves (ok : Link → BtResults → Prop) (before : ℕ → Link → Prop)
    (done : Link → Prop) : Prop where
  start : ∀ l, before 0 l
  advStop : ∀ (r : BtResults) (l : Link), before 1 (l.exec r .advStop)
  setup : ∀ r l, ok l r → before 1 l → before 2 (l.exec r .setupAcceptList)
  finish : ∀ r l, ok l r → before 2 l → done (l.exec r .advStartIfAllowed)
  connected : ∀ l peer kept, done l → done (l.onConnected peer kept)
  bonded : ∀ l a, l.peer = some a → done l → done (l.bond a)
  bondedBefore : ∀ l a pc, l.peer = some a → before pc l → before pc (l.bond a)

/-- advertise_DCLK is still to come or to end, or it is over and `done` holds. -/
inductive Settling (before : ℕ → Link → Prop) (done : Link → Prop) (s : State) : Prop
  | pending (h : ReleasePending s)
  | queued (h : .advertiseDCLK ∈ s.queue)
  | running (pc : ℕ) (hw : s.worker = some ⟨.advertiseDCLK, pc⟩) (h : before pc s.link)
  | ended (hw : s.worker.map (·.item) ≠ some .advertiseDCLK) (h : done s.link)

/-- The mode of the advertiser while pairing is disabled. -/
def Settles (before : ℕ → Link → Prop) (done : Link → Prop) (s : State) : Prop :=
  s.link.pairEn = false → Settling before done s

theorem settling_of_pending {s t : State} {e : Event} (hp : ReleasePending s) (h : Step s e t) :
    Settling before done t := by
  obtain ⟨hw, he⟩ := hp
  rcases submitting_step hw h with ⟨hw', he'⟩ | ⟨h1, -⟩ | ⟨-, hmem⟩
  · exact .pending ⟨hw', he'.trans he⟩
  · omega
  · exact .queued hmem

theorem settling_of_queued (hach : Achieves ok before done) {s t : State} {e : Event}
    (hmem : .advertiseDCLK ∈ s.queue) (h : Step s e t) : Settling before done t := by
  rcases mem_queue_step hmem h with hqueue | hw
  · exact .queued hqueue
  · exact .running 0 hw (hach.start t.link)

theorem settling_of_running (hach : Achieves ok before done) {s t : State} {e : Event} {pc : ℕ}
    (hw : s.worker = some ⟨.advertiseDCLK, pc⟩) (hb : before pc s.link)
    (hok : ∀ r, e = .stmt r → ok s.link r) (h : Step s e t) : Settling before done t := by
  cases h
  case advertiseDCLK r pc' st hw' ha =>
    obtain rfl : pc = pc' := by
      rw [hw] at hw'
      cases hw'
      rfl
    have hr := hok r rfl
    cases ha with
    | advertiseStop => exact .running 1 rfl (hach.advStop r s.link)
    | advertiseList => exact .running 2 rfl (hach.setup r s.link hr hb)
    | advertiseStart => exact .ended (by simp) (hach.finish r s.link hr hb)
  case bonded a hp => exact .running pc hw (hach.bondedBefore s.link a pc hp hb)
  all_goals first
    | exact .running pc hw hb
    | simp_all

/-- Without a pair_DCLK that runs, only advertise_DCLK itself touches the advertiser. -/
theorem settling_of_ended (hach : Achieves ok before done) {s t : State} {e : Event}
    (hw : s.worker.map (·.item) ≠ some .advertiseDCLK)
    (hnot : s.worker.map (·.item) ≠ some .pairDCLK) (hd : done s.link)
    (hen : t.link.pairEn = s.link.pairEn) (h : Step s e t) : Settling before done t := by
  cases h
  case dequeue w q hw' hq =>
    by_cases hwa : w = .advertiseDCLK
    · subst hwa
      exact .running 0 rfl (hach.start s.link)
    · exact .ended (by simpa using hwa) hd
  case connected peer kept hw' hp => exact .ended hw (hach.connected s.link peer kept hd)
  case connectFailed kept hw' hp => exact .queued (mem_submit.mpr (.inr rfl))
  case disconnected hw' hp => exact .queued (mem_submit.mpr (.inr rfl))
  case bonded a hp => exact .ended hw (hach.bonded s.link a hp hd)
  case setPairEn r enable hw' he =>
    have hsame : s.link.exec r (.setPairEn enable) = s.link := by
      simp only [Link.exec] at hen ⊢
      rw [hen]
    exact .ended (by simp) (by rw [hsame]; exact hd)
  case pairDCLK r pc st hw' ha => exact absurd (by rw [hw']; rfl) hnot
  case advertiseDCLK r pc st hw' ha => exact absurd (by rw [hw']; rfl) hw
  all_goals exact .ended (by simp_all) hd

theorem settles_step (hach : Achieves ok before done) {s t : State} {e : Event}
    (hord : PairingOrder s) (hi : Settles before done s)
    (hok : ∀ r, e = .stmt r → ok s.link r) (h : Step s e t) : Settles before done t := by
  intro hen
  rcases pairEn_of_step h with hsame | ⟨enable, -, hw, -, hbtns, rfl, he⟩
  · have hdis : s.link.pairEn = false := hsame ▸ hen
    cases hi hdis with
    | pending hp => exact settling_of_pending hp h
    | queued hmem => exact settling_of_queued hach hmem h
    | running pc hw hb => exact settling_of_running hach hw hb hok h
    | ended hw hd =>
        -- a pair_DCLK that runs has an advertise_DCLK behind it
        rcases hord.covered hdis with hp | hcov | ⟨-, hnot⟩
        · exact settling_of_pending hp h
        · exact settling_of_queued hach hcov.1 h
        · exact settling_of_ended hach hw hnot hd hsame h
  · exact .pending ⟨hw, by rw [hbtns, he, hen]; rfl⟩

end LastItem

section Closed

/-- Not open to unknown displays. -/
def Closed (l : Link) : Prop := l.adv ≠ some .noAcceptList

/-- bt_le_adv_stop comes first. -/
def Silent (pc : ℕ) (l : Link) : Prop := 0 < pc → l.adv = none

/-- Whatever the stack returns, advertise_DCLK ends open advertising. -/
theorem achieves_closed : Achieves (fun _ _ => True) Silent Closed where
  start l h := absurd h (lt_irrefl 0)
  advStop r l _ := rfl
  setup r l _ hb _ := by
    simp only [Link.exec, setupAcceptList]
    split_ifs <;> exact hb Nat.one_pos
  finish r l _ hb := by
    have hnone : l.adv = none := hb Nat.two_pos
    simp only [Closed, Link.exec, Link.advStart_eq]
    split_ifs <;> simp [hnone]
  connected l peer kept hd := by
    cases kept with
    | false => simp [Closed, Link.onConnected]
    | true => exact hd
  bonded l a _ hd := hd
  bondedBefore l a pc _ hb := hb

theorem settles_closed_of_run {bonds acceptList : List Addr} {es : List Event} {s : State}
    (hrun : controller.run (boot bonds acceptList) es = some s) : Settles Silent Closed s := by
  have hstep : ∀ s e t, PairingOrder s ∧ Settles Silent Closed s → controller.step s e = some t →
      PairingOrder t ∧ Settles Silent Closed t := fun s e t hi h =>
    ⟨pairingOrder_step hi.1 (step_inv h),
      settles_step achieves_closed hi.1 hi.2 (fun _ _ => trivial) (step_inv h)⟩
  have hboot : Settles Silent Closed (boot bonds acceptList) := fun _ =>
    .ended (by simp [boot]) (by simp [Closed, boot, Link.boot])
  exact (Machine.run_invariant' hstep hrun ⟨pairingOrder_boot bonds acceptList, hboot⟩).2

theorem Settling.done_of_drained {before : ℕ → Link → Prop} {done : Link → Prop} {s : State}
    (h : Settling before done s) (hd : Drained s) : done s.link := by
  obtain ⟨hq, hw⟩ := hd
  cases h with
  | pending hp => simp [hp.1] at hw
  | queued hmem => simp [hq] at hmem
  | running pc hw' _ => simp [hw'] at hw
  | ended _ h => exact h

/-- Whenever the queue has drained, pair_en is the last level of the pair button, and
nothing is advertised openly unless it is set. -/
theorem closed_of_drained (bonds acceptList : List Addr) (es : List Event) (s : State)
    (hrun : controller.run (boot bonds acceptList) es = some s) (hd : Drained s) :
    (s.link.pairEn = true ↔ ∃ level, lastLevel .pair s.hist = some level ∧ level ≠ 0) ∧
      (s.link.pairEn = false → s.link.adv ≠ some .noAcceptList) :=
  ⟨pairEn_iff_of_drained hrun hd, fun hen =>
    (settles_closed_of_run hrun hen).done_of_drained hd⟩

/-- pair is pressed, and released before pair_DCLK runs; the accept list cannot be
cleared and no advertising can be started. -/
def releasedRun : List Event :=
  wholeEvent .pair 1 5 ++ [Event.edge .pair 0] ++ work 3 ++ work 5 ++
    Event.dequeue :: List.replicate 3 (.stmt ⟨0, -1, [], -1⟩)

theorem closed_releasedRun :
    ∃ s, controller.run (boot [7] []) releasedRun = some s ∧ Drained s ∧
      (s.link.pairEn = true ↔ ∃ level, lastLevel .pair s.hist = some level ∧ level ≠ 0) ∧
      (s.link.pairEn = false → s.link.adv ≠ some .noAcceptList) :=
  ⟨_, rfl, by decide, closed_of_drained [7] [] releasedRun _ rfl (by decide)⟩

end Closed

section Reconnectable

/-- A bonded display that is not connected can connect: it is on the accept list, and
that is what is advertised with. -/
def Reconnectable (l : Link) : Prop :=
  l.peer ≠ none ∨ l.bonds = [] ∨ (l.adv = some .acceptList ∧ l.acceptList = l.bonds)

/-- setup_accept_list comes second. -/
def Listed (pc : ℕ) (l : Link) : Prop :=
  pc = 2 → l.peer ≠ none ∨ (l.acceptList = l.bonds ∧ l.allowedCnt = l.bonds.length)

/-- The accept-list and advertising calls succeed when no peer is connected. -/
def Succeeds (l : Link) (r : BtResults) : Prop :=
  l.peer = none → r.clear = 0 ∧ (∀ err ∈ r.add, err = 0) ∧ r.advStart = 0

instance (l : Link) (r : BtResults) : Decidable (Succeeds l r) :=
  inferInstanceAs (Decidable (_ → _))

/-- They do from dclk_init on. -/
def StackSucceeds (s : State) (e : Event) : Prop :=
  e.ForStmt fun r => s.ready = true → Succeeds s.link r

instance (s : State) (e : Event) : Decidable (StackSucceeds s e) :=
  inferInstanceAs (Decidable (Event.ForStmt _ e))

theorem achieves_reconnectable : Achieves Succeeds Listed Reconnectable where
  start l h := by cases h
  advStop r l h := by cases h
  setup r l hok _ _ := by
    by_cases hp : l.peer = none
    · obtain ⟨hclear, hadd, -⟩ := hok hp
      right
      simp [Link.exec, setupAcceptList_success hclear hadd]
    · left
      simpa using hp
  finish r l hok hb := by
    by_cases hp : l.peer = none
    · obtain ⟨-, -, hadv⟩ := hok hp
      obtain ⟨hlist, hcnt⟩ := (hb rfl).resolve_left (by simp [hp])
      by_cases hbonds : l.bonds = []
      · right
        left
        simp only [Link.exec, Link.advStart_eq]
        split_ifs <;> exact hbonds
      · have hpos : 0 < l.allowedCnt := by
          have hlen := List.length_pos_iff.mpr hbonds
          omega
        right
        right
        simp [Link.exec, Link.advStart_eq, hpos, hadv, hlist]
    · left
      simpa using hp
  connected l peer kept _ := .inl (by simp [Link.onConnected])
  bonded l a hp _ := .inl (by simp [Link.bond, hp])
  bondedBefore l a pc hp _ _ := .inl (by simp [Link.bond, hp])

/-- dclk_init submits advertise_DCLK. -/
theorem ready_of_step {s t : State} {e : Event} (h : Step s e t) (hr : t.ready = true) :
    s.ready = true ∨ .advertiseDCLK ∈ t.queue := by
  cases h
  case dclkInit hw hr' => exact .inr (mem_submit.mpr (.inr rfl))
  all_goals exact .inl hr

theorem settles_reconnectable_of_run {bonds acceptList : List Addr} {es : List Event} {s : State}
    (hrun : controller.run (boot bonds acceptList) es = some s)
    (hc : controller.Meets StackSucceeds (boot bonds acceptList) es) (hr : s.ready = true) :
    Settles Listed Reconnectable s := by
  have hstep : ∀ s e t, PairingOrder s ∧ (s.ready = true → Settles Listed Reconnectable s) →
      StackSucceeds s e → controller.step s e = some t →
      PairingOrder t ∧ (t.ready = true → Settles Listed Reconnectable t) := by
    intro s e t hi hc h
    refine ⟨pairingOrder_step hi.1 (step_inv h), fun hr hen => ?_⟩
    rcases ready_of_step (step_inv h) hr with hold | hmem
    · have hok : ∀ r, e = .stmt r → Succeeds s.link r := by
        rintro r rfl
        exact hc hold
      exact settles_step achieves_reconnectable hi.1 (hi.2 hold) hok (step_inv h) hen
    · exact .queued hmem
  have hboot : (boot bonds acceptList).ready = true →
      Settles Listed Reconnectable (boot bonds acceptList) := fun h => by cases h
  exact (Machine.run_invariant hstep hrun hc ⟨pairingOrder_boot bonds acceptList, hboot⟩).2 hr

/-- After dclk_init, whenever the queue has drained with pairing disabled, no peer and
some bond, the controller advertises to exactly the bonded displays. -/
theorem reconnectable_of_drained (bonds acceptList : List Addr) (es : List Event) (s : State)
    (hrun : controller.run (boot bonds acceptList) es = some s)
    (hc : controller.Meets StackSucceeds (boot bonds acceptList) es) (hr : s.ready = true)
    (hd : Drained s) (hen : s.link.pairEn = false) (hp : s.link.peer = none)
    (hb : s.link.bonds ≠ []) :
    s.link.adv = some .acceptList ∧ ∀ a, a ∈ s.link.acceptList ↔ a ∈ s.link.bonds := by
  have hdone := (settles_reconnectable_of_run hrun hc hr hen).done_of_drained hd
  rcases hdone with hpeer | hnil | ⟨hadv, hlist⟩
  · exact absurd hp hpeer
  · exact absurd hnil hb
  · exact ⟨hadv, fun a => by rw [hlist]⟩

/-- A new display is paired and bonded, and its connection is lost after the release. -/
def bondedRun : List Event :=
  startUp ++ wholeEvent .pair 1 5 ++ work 3 ++ [Event.connected 7 false, .bonded] ++
    wholeEvent .pair 0 5 ++ work 2 ++ [Event.stmt ⟨0, 0, [], -12⟩, .disconnected] ++ work 3

theorem reconnectable_bondedRun :
    ∃ s, controller.run (boot [] []) bondedRun = some s ∧
      s.link.adv = some .acceptList ∧ ∀ a, a ∈ s.link.acceptList ↔ a ∈ s.link.bonds :=
  ⟨_, rfl, reconnectable_of_drained [] [] bondedRun _ rfl (by decide) rfl (by decide) rfl rfl
    (by decide)⟩

end Reconnectable

end DodgeClock
