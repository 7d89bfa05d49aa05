import DodgeClock.Advertising

/-!
# What the controller advertises while pairing

pair_DCLK advertises to every display, but advertise_DCLK does not ask whether pairing
is enabled: when a lost or failed connection submits it, it stops the open
advertising. As long as no advertise_DCLK starts during pairing without a pair_DCLK
queued behind it, the controller stays connectable to a new display.
-/
namespace DodgeClock
open EventSystem OnceQueue

/-- bt_le_adv_start succeeds when no peer is connected. -/
def AdvStarts (s : State) (e : Event) : Prop :=
  e.ForStmt fun r => s.link.peer = none → r.advStart = 0

instance (s : State) (e : Event) : Decidable (AdvStarts s e) :=
  inferInstanceAs (Decidable (Event.ForStmt _ e))

/-- bt_unpair removes the bonds, and an advertiser stops when a peer connects. -/
def StackBehaves : Event → Prop
  | .stmt r => r.unpair = 0
  | .connected _ kept | .connectFailed kept => kept = false
  | _ => True

instance StackBehaves.decidable : (e : Event) → Decidable (StackBehaves e)
  | .stmt r => inferInstanceAs (Decidable (r.unpair = 0))
  | .connected _ kept | .connectFailed kept => inferInstanceAs (Decidable (kept = false))
  | .edge _ _ | .dequeue | .dExpire | .sleepExpire | .elapse _ | .dclkInit | .arm
  | .disconnected | .bonded => .isTrue trivial

/-- An advertise_DCLK that starts during pairing has a pair_DCLK queued behind it. -/
def PairsAfter (s : State) (e : Event) : Prop :=
  e = .dequeue → s.queue.head? = some .advertiseDCLK → s.link.pairEn = true →
    .pairDCLK ∈ s.queue.tail

instance (s : State) (e : Event) : Decidable (PairsAfter s e) :=
  inferInstanceAs (Decidable (_ → _))

/-- pair_DCLK is still to come or to end, or after it nothing stopped the open
advertising but a connection. -/
inductive Opening (s : State) : Prop
  | pending (hw : s.worker = some ⟨.button .pair, 3⟩) (he : (s.btns .pair).evt = 1)
  | queued (h : .pairDCLK ∈ s.queue)
  | running (hw : s.worker.map (·.item) = some .pairDCLK)
  | ended (hw : s.worker.map (·.item) ≠ some .advertiseDCLK)
      (h : s.link.peer ≠ none ∨ .advertiseDCLK ∈ s.queue ∨ s.link.adv = some .noAcceptList)

theorem opening_of_pending {s t : State} {e : Event}
    (hw : s.worker = some ⟨.button .pair, 3⟩) (he : (s.btns .pair).evt = 1) (h : Step s e t) :
    Opening t := by
  rcases submitting_step hw h with ⟨hw', he'⟩ | ⟨-, hmem⟩ | ⟨h0, -⟩
  · exact .pending hw' (he'.trans he)
  · exact .queued hmem
  · omega

theorem opening_of_queued {s t : State} {e : Event} (hmem : .pairDCLK ∈ s.queue)
    (h : Step s e t) : Opening t := by
  rcases mem_queue_step hmem h with hqueue | hw
  · exact .queued hqueue
  · exact .running (by rw [hw]; rfl)

theorem opening_of_running {s t : State} {e : Event}
    (hw : s.worker.map (·.item) = some .pairDCLK) (hc : AdvStarts s e) (h : Step s e t) :
    Opening t := by
  cases h
  case pairDCLK r pc st hw' ha =>
    cases ha with
    | pairAdvStop | pairUnpair => exact .running rfl
    | pairAdvStart =>
        refine .ended (by simp) ?_
        by_cases hp : s.link.peer = none
        · have hok : r.advStart = 0 := hc hp
          exact .inr (.inr (by simp [Link.exec, Link.advStart_eq, hok]))
        · exact .inl (by simpa using hp)
  case edge b level => exact .running hw
  all_goals first
    | exact .running hw
    | simp_all

theorem opening_of_ended {s t : State} {e : Event}
    (hw : s.worker.map (·.item) ≠ some .advertiseDCLK)
    (hnot : s.worker.map (·.item) ≠ some .pairDCLK)
    (hd : s.link.peer ≠ none ∨ .advertiseDCLK ∈ s.queue ∨ s.link.adv = some .noAcceptList)
    (hen : s.link.pairEn = true) (hc : PairsAfter s e) (h : Step s e t) : Opening t := by
  cases h
  case edge b level =>
    exact .ended hw (hd.imp id (Or.imp (fun hmem => mem_submit.mpr (.inl hmem)) id))
  case dequeue w q hw' hq =>
    by_cases hwa : w = .advertiseDCLK
    · subst hwa
      have hmem : .pairDCLK ∈ s.queue.tail := hc rfl (by rw [hq]; rfl) hen
      rw [hq] at hmem
      exact .queued hmem
    · refine .ended (by simpa using hwa) (hd.imp id (Or.imp (fun hmem => ?_) id))
      rw [hq] at hmem
      exact (List.mem_cons.mp hmem).resolve_left (Ne.symm hwa)
  case dclkInit hw' hr | connectFailed kept hw' hp | disconnected hw' hp =>
    have hmem : .advertiseDCLK ∈ submit .advertiseDCLK s.queue := mem_submit.mpr (.inr rfl)
    exact .ended hw (.inr (.inl hmem))
  case connected peer kept hw' hp => exact .ended hw (.inl (by simp [Link.onConnected]))
  case submitPair r hw' he => exact .queued (mem_submit.mpr (.inr rfl))
  case submitAdvertise r hw' he =>
    exact .ended (by simp) (hd.imp id (Or.imp (fun hmem => mem_submit.mpr (.inl hmem)) id))
  case pairDCLK r pc st hw' ha => exact absurd (by rw [hw']; rfl) hnot
  case advertiseDCLK r pc st hw' ha => exact absurd (by rw [hw']; rfl) hw
  -- the others change neither the queue nor what hd says of the link
  all_goals exact .ended (by simp_all) hd

theorem opening_step {s t : State} {e : Event}
    (hi : s.link.pairEn = true → Opening s) (hadv : AdvStarts s e) (hc : PairsAfter s e)
    (h : Step s e t) (hen : t.link.pairEn = true) : Opening t := by
  rcases pairEn_of_step h with hsame | ⟨enable, -, hw, -, hbtns, rfl, he⟩
  · have hon : s.link.pairEn = true := hsame ▸ hen
    cases hi hon with
    | pending hw he => exact opening_of_pending hw he h
    | queued hmem => exact opening_of_queued hmem h
    | running hw => exact opening_of_running hw hadv h
    | ended hw hd =>
        by_cases hp : s.worker.map (·.item) = some .pairDCLK
        · exact opening_of_running hp hadv h
        · exact opening_of_ended hw hp hd hon hc h
  · exact .pending hw (by rw [hbtns, he, hen]; rfl)

theorem opening_of_run {bonds acceptList : List Addr} {es : List Event} {s : State}
    (hrun : controller.run (boot bonds acceptList) es = some s)
    (hc : controller.Meets (fun s e => AdvStarts s e ∧ PairsAfter s e) (boot bonds acceptList) es) :
    s.link.pairEn = true → Opening s :=
  Machine.run_invariant (fun _ _ _ hi hc h => opening_step hi hc.1 hc.2 (step_inv h)) hrun hc
    (by simp [boot, Link.boot])

/-- If advertise_DCLK never starts alone during pairing, the controller advertises
openly whenever the queue has drained with pairing enabled and no peer. -/
theorem open_of_drained (bonds acceptList : List Addr) (es : List Event) (s : State)
    (hrun : controller.run (boot bonds acceptList) es = some s)
    (hadv : controller.Meets AdvStarts (boot bonds acceptList) es)
    (hc : controller.Meets PairsAfter (boot bonds acceptList) es)
    (hd : Drained s) (hen : s.link.pairEn = true) (hp : s.link.peer = none) :
    s.link.adv = some .noAcceptList := by
  obtain ⟨hq, hw⟩ := hd
  cases opening_of_run hrun (hadv.and hc) hen with
  | pending hw' _ => simp [hw'] at hw
  | queued hmem => simp [hq] at hmem
  | running hw' => simp [hw] at hw'
  | ended _ hd =>
      rcases hd with hpeer | hmem | hopen
      · exact absurd hp hpeer
      · simp [hq] at hmem
      · exact hopen

/-- pair is pressed while a bonded display is being waited for. -/
def pairWhileBondedRun : List Event := startUp ++ wholeEvent .pair 1 5 ++ work 3

theorem open_pairWhileBondedRun :
    ∃ s, controller.run (boot [7] []) pairWhileBondedRun = some s ∧
      s.link.adv = some .noAcceptList :=
  ⟨_, rfl, open_of_drained [7] [] pairWhileBondedRun _ rfl (by decide) (by decide) (by decide)
    rfl rfl⟩

/-- pair is pressed while a bonded display is connected; deleting its bond disconnects it. -/
def pairWhileConnectedRun : List Event :=
  startUp ++ [Event.connected 7 false] ++ wholeEvent .pair 1 5 ++ work 3 ++
    [Event.disconnected] ++ work 3

/-- The disconnection submits advertise_DCLK, which leaves nothing advertised. -/
theorem not_open_of_drained :
    ¬ ∀ (bonds acceptList : List Addr) (es : List Event) (s : State),
      controller.run (boot bonds acceptList) es = some s →
        controller.Meets (fun s e => AdvStarts s e ∧ StackBehaves e) (boot bonds acceptList) es →
          Drained s → s.link.pairEn = true → s.link.peer = none →
            s.link.adv = some .noAcceptList := by
  intro h
  have hopen := h [7] [] pairWhileConnectedRun _ rfl (by decide) (by decide) rfl rfl
  exact absurd hopen (by decide)

end DodgeClock
