import DodgeClock.AcceptList
import DodgeClock.BootOrder
import DodgeClock.OpenAdvertising

/-!
# Which displays can connect

The stack admits every device while advertising is open and the devices of the accept
list while it is filtered. The list is made from the bonds and used after that, and
pair_DCLK deletes bonds in between. What keeps a display whose bond is deleted away is the
order of the statements: advertising is always stopped first. Without a press of pair
there is no open advertising, and so no new bond either.
-/
namespace DodgeClock
open EventSystem OnceQueue

section List

/-- The accept list is advertised with, or advertise_DCLK is about to do so. -/
def State.ListInUse (s : State) : Prop :=
  s.link.adv = some .acceptList ∨ s.worker = some ⟨.advertiseDCLK, 2⟩ ∧ 0 < s.link.allowedCnt

instance (s : State) : Decidable s.ListInUse := inferInstanceAs (Decidable (_ ∨ _))

/-- Every device of an accept list in use is bonded. -/
def ListsBonded (s : State) : Prop := s.ListInUse → s.link.acceptList ⊆ s.link.bonds

/-- When a failure to clear the accept list is taken for a number of bonds, all devices of
the old list are still bonded. -/
def ClearsStale (s : State) (e : Event) : Prop :=
  e.ForStmt fun r => s.worker = some ⟨.advertiseDCLK, 1⟩ → 0 < r.clear →
    s.link.acceptList ⊆ s.link.bonds

instance (s : State) (e : Event) : Decidable (ClearsStale s e) :=
  inferInstanceAs (Decidable (Event.ForStmt _ e))

/-- Behind its first statement a job of DCLK.c has nothing advertised. -/
def StopsFirst (s : State) : Prop :=
  ∀ pc, 1 ≤ pc → s.worker = some ⟨.pairDCLK, pc⟩ ∨ s.worker = some ⟨.advertiseDCLK, pc⟩ →
    s.link.adv = none

variable {s t : State} {e : Event}

theorem stopsFirst_boot (bonds acceptList : List Addr) : StopsFirst (boot bonds acceptList) :=
  fun _ _ _ => rfl

theorem stopsFirst_step (hi : StopsFirst s) (h : Step s e t) : StopsFirst t := by
  cases h
  case pairDCLK r pc st hw ha =>
    cases ha with
    | pairAdvStop => exact fun _ _ _ => rfl
    | pairUnpair =>
        have hnone : s.link.adv = none := hi 1 le_rfl (.inl hw)
        intro _ _ _
        simp only [Link.exec]
        split_ifs <;> exact hnone
    | pairAdvStart => intro pc hpc hjob; simp at hjob
  case advertiseDCLK r pc st hw ha =>
    cases ha with
    | advertiseStop => exact fun _ _ _ => rfl
    | advertiseList =>
        have hnone : s.link.adv = none := hi 1 le_rfl (.inr hw)
        intro _ _ _
        simp only [Link.exec, setupAcceptList]
        split_ifs <;> exact hnone
    | advertiseStart => intro pc hpc hjob; simp at hjob
  case dequeue w q hw hq =>
    intro pc hpc hjob
    simp only [Option.some.injEq, Frame.mk.injEq] at hjob
    omega
  all_goals
    intro pc hpc hjob
    first
      | exact hi pc hpc hjob
      | simp_all

/-- setup_accept_list counts bonds, unless it passes on a failure. -/
theorem listed_iff (r : BtResults) (l : Link) :
    (0 < (setupAcceptList r l).2 → (setupAcceptList r l).1.acceptList ⊆ l.bonds) ↔
      (0 < r.clear → l.acceptList ⊆ l.bonds) := by
  by_cases hclear : r.clear ≤ 0
  · refine iff_of_true (fun hpos => ?_) (fun hpos => by omega)
    obtain ⟨-, h0, hadd⟩ := (setupAcceptList_pos_iff hclear).mp hpos
    rw [setupAcceptList_of_added h0 hadd]
    exact List.Subset.refl _
  · have hne : r.clear ≠ 0 := by omega
    rw [setupAcceptList, if_pos hne]

theorem listsBonded_step (hi : StopsFirst s) (hs : ListsBonded s) (h : Step s e t) :
    ListsBonded t ↔ ClearsStale s e := by
  have hother : ∀ r, s.worker ≠ some ⟨.advertiseDCLK, 1⟩ → ClearsStale s (.stmt r) :=
    fun r hne hw => absurd hw hne
  cases h
  case advertiseDCLK r pc st hw ha =>
    cases ha with
    | advertiseStop =>
        refine iff_of_true (fun huse => ?_) (hother r (by simp [hw]))
        rcases huse with hadv | ⟨hlast, -⟩
        · cases hadv
        · simp at hlast
    | advertiseList =>
        have hnone : s.link.adv = none := hi 1 le_rfl (.inr hw)
        have hstop : (setupAcceptList r s.link).1.adv = none := by
          simp only [setupAcceptList]
          split_ifs <;> exact hnone
        have hbonds : (setupAcceptList r s.link).1.bonds = s.link.bonds := by
          simp only [setupAcceptList]
          split_ifs <;> rfl
        simp only [ListsBonded, State.ListInUse, Link.exec, hstop, hbonds]
        simpa [ClearsStale, Event.ForStmt, hw] using listed_iff r s.link
    | advertiseStart =>
        refine iff_of_true (fun huse => ?_) (hother r (by simp [hw]))
        have hnone : s.link.adv = none := hi 2 (by decide) (.inr hw)
        have hpos : 0 < s.link.allowedCnt := by
          by_contra hpos
          simp [State.ListInUse, Link.exec, hpos, hnone] at huse
        have hlist := hs (.inr ⟨hw, hpos⟩)
        simpa [Link.exec, Link.advStart_eq, hpos] using hlist
  case pairDCLK r pc st hw ha =>
    refine iff_of_true (fun huse => ?_) (hother r (by simp [hw]))
    rcases huse with hadv | ⟨hlast, -⟩
    · cases ha with
      | pairAdvStop => cases hadv
      | pairUnpair =>
          have hnone : s.link.adv = none := hi 1 le_rfl (.inl hw)
          revert hadv
          simp only [Link.exec]
          split_ifs <;> simp [hnone]
      | pairAdvStart =>
          have hnone : s.link.adv = none := hi 2 (by decide) (.inl hw)
          revert hadv
          simp only [Link.exec, Link.advStart_eq]
          split_ifs <;> simp [hnone]
    · cases ha <;> simp at hlast
  case bonded a hp =>
    refine iff_of_true (fun huse => List.Subset.trans (hs huse) ?_) trivial
    simp only [Link.bond]
    split_ifs
    · exact List.Subset.refl _
    · exact List.subset_cons_self a _
  case connected peer kept hw hp =>
    refine iff_of_true (fun huse => hs (.inl ?_)) trivial
    rcases huse with hadv | ⟨hlast, -⟩
    · cases kept with
      | false => simp [Link.onConnected] at hadv
      | true => exact hadv
    · simp [hw] at hlast
  case connectFailed kept hw hp =>
    refine iff_of_true (fun huse => hs (.inl ?_)) trivial
    rcases huse with hadv | ⟨hlast, -⟩
    · cases kept with
      | false => simp [Link.onConnectFailed] at hadv
      | true => exact hadv
    · simp [hw] at hlast
  case dequeue w q hw hq =>
    refine iff_of_true (fun huse => hs (huse.imp_right fun hlast => ?_)) trivial
    exact absurd hlast.1 (by simp)
  case readVal r b hw | callActive r b hw ha | callActiveEmpty r b hw ha
    | setPairEn r enable hw he | submitPair r hw he | submitAdvertise r hw he
    | stopSleep r b pc hw ha | startState r hw he | startTimer r hw he | stopSave r hw he
    | stopTimer r hw he | stopState r hw he =>
    refine iff_of_true (fun huse => hs (huse.imp_right fun hlast => ?_)) (hother r (by simp [hw]))
    exact absurd hlast.1 (by simp)
  all_goals exact iff_of_true hs trivial

theorem listsBonded_boot (bonds acceptList : List Addr) : ListsBonded (boot bonds acceptList) :=
  fun huse => absurd huse (by simp [State.ListInUse, boot, Link.boot])

/-- In every run, all devices of an accept list in use are bonded in every state exactly if
no failure to clear the list is taken for a number of bonds while it names a device that is
not. -/
theorem listsBonded_iff (bonds acceptList : List Addr) (es : List Event) (s : State)
    (hrun : controller.run (boot bonds acceptList) es = some s) :
    (∀ v ∈ controller.visited (boot bonds acceptList) es, ListsBonded v) ↔
      controller.Meets ClearsStale (boot bonds acceptList) es :=
  Machine.forall_visited_iff_meets (fun _ _ _ hi _ _ h => stopsFirst_step hi (step_inv h))
    (fun _ _ _ hi hs h => listsBonded_step hi hs (step_inv h)) hrun
    (stopsFirst_boot bonds acceptList) (listsBonded_boot bonds acceptList)

/-- A connection attempt fails, and after it the accept list cannot be cleared. -/
def unclearedRun : List Event :=
  startUp ++ [Event.connectFailed false, .dequeue] ++ List.replicate 3 (.stmt ⟨0, 0x0C, [], 0⟩)

theorem listsBonded_unclearedRun :
    ∃ s, controller.run (boot [7] []) unclearedRun = some s ∧ s.link.adv = some .acceptList ∧
      ∀ v ∈ controller.visited (boot [7] []) unclearedRun, ListsBonded v :=
  ⟨_, rfl, rfl, (listsBonded_iff [7] [] unclearedRun _ rfl).mpr (by decide)⟩

/-- pair is pressed and released, and the accept list cannot be cleared. -/
def unclearedPairRun : List Event :=
  startUp ++ wholeEvent .pair 1 5 ++ work 3 ++ wholeEvent .pair 0 5 ++
    .dequeue :: List.replicate 3 (.stmt ⟨0, 0x0C, [], 0⟩)

/-- After a press of pair the same failure admits a device whose bond is deleted. -/
theorem not_listsBonded : ¬ ∀ (bonds acceptList : List Addr) (es : List Event) (s : State),
    controller.run (boot bonds acceptList) es = some s →
      ∀ v ∈ controller.visited (boot bonds acceptList) es, ListsBonded v := by
  intro h
  have hall := h [7] [] unclearedPairRun _ rfl
  have hlists := hall _ (List.mem_of_getLast? rfl) (.inl rfl)
  exact absurd hlists (by decide)

end List

section Trusted

/-- The advertiser admits a connection of the device. -/
def Link.Admits (l : Link) (peer : Addr) : Prop :=
  l.adv = some .noAcceptList ∨ l.adv = some .acceptList ∧ peer ∈ l.acceptList

instance (l : Link) (peer : Addr) : Decidable (l.Admits peer) :=
  inferInstanceAs (Decidable (_ ∨ _))

/-- A connection that is reported was admitted, then or in a state passed before. -/
def AdmittedBy (seen : List State) : Event → Prop
  | .connected peer _ => ∃ v ∈ seen, v.link.Admits peer
  | _ => True

instance AdmittedBy.decidable (seen : List State) : (e : Event) → Decidable (AdmittedBy seen e)
  | .connected peer _ => inferInstanceAs (Decidable (∃ v ∈ seen, v.link.Admits peer))
  | .edge _ _ | .dequeue | .stmt _ | .dExpire | .sleepExpire | .elapse _ | .dclkInit | .arm
  | .connectFailed _ | .disconnected | .bonded => .isTrue trivial

/-- All connections of a run were admitted, `seen` being the states passed before it. -/
def Filtered : List State → State → List Event → Prop
  | _, _, [] => True
  | seen, s, e :: es => AdmittedBy (s :: seen) e ∧ match controller.step s e with
    | some t => Filtered (s :: seen) t es
    | none => True

instance Filtered.decidable : (seen : List State) → (s : State) → (es : List Event) →
    Decidable (Filtered seen s es)
  | _, _, [] => .isTrue trivial
  | seen, s, e :: es =>
      have : Decidable (match controller.step s e with
          | some t => Filtered (s :: seen) t es
          | none => True) :=
        match controller.step s e with
        | some t => Filtered.decidable (s :: seen) t es
        | none => .isTrue trivial
      inferInstanceAs (Decidable (_ ∧ _))

/-- handle_button_event makes no press of the level of pair. -/
def NoPairing (s : State) (e : Event) : Prop := e.ForStmt fun _ => ¬ s.ReadsPress .pair

instance (s : State) (e : Event) : Decidable (NoPairing s e) :=
  inferInstanceAs (Decidable (Event.ForStmt _ e))

/-- No pair_DCLK is on its way. -/
structure Unpaired (s : State) : Prop where
  released : (s.btns .pair).evt ≠ 1
  unqueued : .pairDCLK ∉ s.queue
  idle : s.worker.map (·.item) ≠ some .pairDCLK

/-- The bonds are `b`, and nobody else gets in. -/
structure ShutTo (b : List Addr) (s : State) : Prop where
  bonds : s.link.bonds = b
  peer : ∀ a, s.link.peer = some a → a ∈ b
  closed : Closed s.link
  lists : ListsBonded s

variable {b : List Addr} {s t : State} {e : Event}

theorem Link.exec_bonds {st : LinkStmt} (h : st ≠ .unpair) (r : BtResults) (l : Link) :
    (l.exec r st).bonds = l.bonds := by
  cases st with
  | unpair => exact absurd rfl h
  | setPairEn | advStop => rfl
  | advStart | advStartIfAllowed | setupAcceptList =>
      simp only [exec, advStart_eq, DodgeClock.setupAcceptList]
      try split_ifs <;> rfl

theorem ShutTo.admits (hi : ShutTo b s) {peer : Addr} (h : s.link.Admits peer) : peer ∈ b := by
  rcases h with hopen | ⟨hadv, hmem⟩
  · exact absurd hopen hi.closed
  · rw [← hi.bonds]
    exact hi.lists (.inl hadv) hmem

theorem unpaired_step (hi : Unpaired s) (hc : NoPairing s e) (h : Step s e t) : Unpaired t := by
  obtain ⟨hreleased, hunqueued, hidle⟩ := hi
  cases h
  case readVal r b hw =>
    refine ⟨?_, hunqueued, by simp⟩
    by_cases hb : b = .pair
    · subst hb
      have hval : (s.btns .pair).val = 0 := by
        by_contra hne
        exact hc ⟨hw, hne⟩
      simp [Btn.readVal, hval, evtOf]
    · simpa [Ne.symm hb] using hreleased
  case edge b level =>
    refine ⟨by simpa using hreleased, fun hmem => ?_, hidle⟩
    rcases mem_submit.mp hmem with hold | hnew
    · exact hunqueued hold
    · cases hnew
  case dequeue w q hw hq =>
    rw [hq, List.mem_cons, not_or] at hunqueued
    exact ⟨hreleased, hunqueued.2, by simpa using Ne.symm hunqueued.1⟩
  case submitPair r hw he => exact absurd he hreleased
  case pairDCLK r pc st hw ha => exact absurd (by rw [hw]; rfl) hidle
  case dclkInit hw hr | connectFailed kept hw hp | disconnected hw hp =>
    refine ⟨hreleased, fun hmem => ?_, hidle⟩
    rcases mem_submit.mp hmem with hold | hnew
    · exact hunqueued hold
    · cases hnew
  case submitAdvertise r hw he =>
    refine ⟨hreleased, fun hmem => ?_, by simp⟩
    rcases mem_submit.mp hmem with hold | hnew
    · exact hunqueued hold
    · cases hnew
  case advertiseDCLK r pc st hw ha =>
    refine ⟨hreleased, hunqueued, ?_⟩
    split_ifs <;> simp
  all_goals exact ⟨hreleased, hunqueued, by simp_all⟩

theorem shutTo_step (hi : ShutTo b s) (hstops : StopsFirst s) (hu : Unpaired s)
    (hclear : ClearsStale s e) (hallowed : ∀ peer kept, e = .connected peer kept → peer ∈ b)
    (h : Step s e t) : ShutTo b t := by
  have hlists : ListsBonded t := (listsBonded_step hstops hi.lists h).mpr hclear
  obtain ⟨hbonds, hpeer, hclosed, -⟩ := hi
  cases h
  case connected peer kept hw hp =>
    refine ⟨hbonds, fun a ha => ?_, achieves_closed.connected _ peer kept hclosed, hlists⟩
    obtain rfl := Option.some.inj ha
    exact hallowed peer kept rfl
  case connectFailed kept hw hp =>
    refine ⟨hbonds, hpeer, ?_, hlists⟩
    cases kept with
    | false => simp [Closed, Link.onConnectFailed]
    | true => exact hclosed
  case disconnected hw hp => exact ⟨hbonds, by simp [Link.onDisconnected], hclosed, hlists⟩
  case bonded a hp =>
    have hmem : a ∈ s.link.bonds := by
      rw [hbonds]
      exact hpeer a hp
    refine ⟨?_, hpeer, hclosed, hlists⟩
    rw [Link.bond, if_pos hmem]
    exact hbonds
  case pairDCLK r pc st hw ha => exact absurd (by rw [hw]; rfl) hu.idle
  case setPairEn r enable hw he => exact ⟨hbonds, hpeer, hclosed, hlists⟩
  case advertiseDCLK r pc st hw ha =>
    have hst : st ≠ .unpair := by cases ha <;> simp
    refine ⟨(Link.exec_bonds hst r s.link).trans hbonds, by simpa using hpeer, ?_, hlists⟩
    intro hopen
    rcases Link.exec_adv hopen with hold | hcall
    · exact hclosed hold
    · cases ha <;> simp [Link.advStartCall] at hcall
  all_goals exact ⟨hbonds, hpeer, hclosed, hlists⟩

theorem shutTo_of_run {seen : List State} {es : List Event} (hi : ShutTo b s)
    (hstops : StopsFirst s) (hu : Unpaired s)
    (hseen : ∀ v ∈ seen, ∀ peer, v.link.Admits peer → peer ∈ b)
    (hrun : controller.run s es = some t) (hclear : controller.Meets ClearsStale s es)
    (hpress : controller.Meets NoPairing s es) (hfilter : Filtered seen s es) : ShutTo b t := by
  induction es generalizing s seen with
  | nil =>
      obtain rfl := Option.some.inj hrun
      exact hi
  | cons e es ih =>
      obtain ⟨m, hm, hrest⟩ := controller.run_cons_eq_some.mp hrun
      obtain ⟨hadmitted, hfilter'⟩ := hfilter
      rw [hm] at hfilter'
      have hpassed : ∀ v ∈ s :: seen, ∀ peer, v.link.Admits peer → peer ∈ b :=
        List.forall_mem_cons.mpr ⟨fun peer => hi.admits, hseen⟩
      have hstep := step_inv hm
      refine ih ?_ (stopsFirst_step hstops hstep) (unpaired_step hu hpress.head hstep) hpassed
        hrest (hclear.tail hm) (hpress.tail hm) hfilter'
      refine shutTo_step hi hstops hu hclear.head (fun peer kept he => ?_) hstep
      subst he
      obtain ⟨v, hv, hadmits⟩ := hadmitted
      exact hpassed v hv peer hadmits

/-- Once the queue has drained with pairing disabled and nobody but a bonded display
connected, no display without a bond connects and no bond is made or lost until
handle_button_event makes a press of pair again. -/
theorem trusted_of_no_press (bonds acceptList : List Addr) (before after : List Event)
    (s t : State) (hbefore : controller.run (boot bonds acceptList) before = some s)
    (hcleared : controller.Meets ClearsStale (boot bonds acceptList) before) (hd : Drained s)
    (hen : s.link.pairEn = false) (hpeer : ∀ a, s.link.peer = some a → a ∈ s.link.bonds)
    (hafter : controller.run s after = some t) (hclear : controller.Meets ClearsStale s after)
    (hpress : controller.Meets NoPairing s after) (hfilter : Filtered [] s after) :
    t.link.bonds = s.link.bonds ∧ (∀ a, t.link.peer = some a → a ∈ s.link.bonds) ∧
      ∀ a, t.link.Admits a → a ∈ s.link.bonds := by
  have hlists : StopsFirst s ∧ ListsBonded s :=
    Machine.run_invariant (I := fun s => StopsFirst s ∧ ListsBonded s) (fun _ _ _ hi hc h =>
        ⟨stopsFirst_step hi.1 (step_inv h), (listsBonded_step hi.1 hi.2 (step_inv h)).mpr hc⟩)
      hbefore hcleared ⟨stopsFirst_boot bonds acceptList, listsBonded_boot bonds acceptList⟩
  have hfollows : FollowsEvent s :=
    Machine.run_invariant' (fun _ _ _ hi h => followsEvent_step hi (step_inv h)) hbefore
      (followsEvent_boot bonds acceptList)
  have hclosed := (closed_of_drained bonds acceptList before s hbefore hd).2 hen
  obtain ⟨hqueue, hworker⟩ := hd
  have hreleased : (s.btns .pair).evt ≠ 1 := by
    have hevt := hfollows.follows (by simp [hworker]) (by simp [hworker])
    rw [hen] at hevt
    exact fun h1 => absurd (hevt.mpr h1) (by decide)
  have hshut : ShutTo s.link.bonds t :=
    shutTo_of_run ⟨rfl, hpeer, hclosed, hlists.2⟩ hlists.1
      ⟨hreleased, by simp [hqueue], by simp [hworker]⟩ (by simp) hafter hclear hpress hfilter
  exact ⟨hshut.bonds, hshut.peer, fun a => hshut.admits⟩

/-- The display bonded before connects again, and its connection is lost again. -/
def rejoinedRun : List Event :=
  [Event.edge .pair 0, .connected 7 true, .bonded] ++ work 5 ++ [Event.disconnected] ++ work 3 ++
    [Event.connected 7 false]

theorem trusted_rejoinedRun :
    ∃ s t, controller.run (boot [] []) bondedRun = some s ∧
      controller.run s rejoinedRun = some t ∧ t.link.bonds = [7] ∧
      (∀ a, t.link.peer = some a → a ∈ [7]) ∧ ∀ a, t.link.Admits a → a ∈ [7] :=
  ⟨_, _, rfl, rfl, trusted_of_no_press [] [] bondedRun rejoinedRun _ _ rfl (by decide) (by decide)
    rfl (by decide) rfl (by decide) (by decide) (by decide)⟩

end Trusted
end DodgeClock
