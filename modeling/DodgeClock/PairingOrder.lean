import DodgeClock.Transitions

/-!
# The order of the work items around pairing

The pair button, pair_DCLK and advertise_DCLK share one queue. A press lets
pair_DCLK be queued and a release advertise_DCLK, which a lost or failed connection
also queues. Once pairing is disabled, advertise_DCLK comes after every queued
pair_DCLK. What makes the duplicates that are dropped harmless is that no
advertise_DCLK ever stands between the button and pair_DCLK.
-/
namespace DodgeClock
open EventSystem OnceQueue

/-- The handler of the pair button has cleared pair_en and is about to submit
advertise_DCLK. -/
def ReleasePending (s : State) : Prop :=
  s.worker = some ⟨.button .pair, 3⟩ ∧ (s.btns .pair).evt = 0

/-- No pair_DCLK runs after the last advertise_DCLK. -/
def AdvertisesLast (q : List Work) (worker : Option Frame) : Prop :=
  Covers q .advertiseDCLK .pairDCLK ∨
    (.pairDCLK ∉ q ∧ worker.map (·.item) ≠ some .pairDCLK)

theorem AdvertisesLast.submit {q : List Work} {worker : Option Frame} {w : Work}
    (h : AdvertisesLast q worker) (hw : w ≠ .pairDCLK) : AdvertisesLast (submit w q) worker := by
  rcases h with hcov | ⟨hmem, hnot⟩
  · exact .inl (hcov.submit hw)
  · refine .inr ⟨fun hsub => ?_, hnot⟩
    rcases mem_submit.mp hsub with hold | hnew
    · exact hmem hold
    · exact hw hnew.symm

theorem AdvertisesLast.dequeue {q : List Work} {w : Work} (h : AdvertisesLast (w :: q) none) :
    AdvertisesLast q (some ⟨w, 0⟩) := by
  rcases h with hcov | ⟨hmem, -⟩
  · by_cases hw : w = .advertiseDCLK
    · subst hw
      exact .inr ⟨hcov.head, by simp⟩
    · exact .inl (hcov.tail (Ne.symm hw))
  · rw [List.mem_cons, not_or] at hmem
    exact .inr ⟨hmem.2, by simpa using Ne.symm hmem.1⟩

structure PairingOrder (s : State) : Prop where
  nodup : s.queue.Nodup
  chain : ¬ Chain s.queue (.button .pair) .advertiseDCLK .pairDCLK
  handling : ∀ pc ≤ 3, s.worker = some ⟨.button .pair, pc⟩ →
    ¬ Ahead s.queue (.button .pair) .advertiseDCLK ∧ ¬ Ahead s.queue .advertiseDCLK .pairDCLK
  enabled : s.worker = some ⟨.button .pair, 3⟩ →
    (s.link.pairEn = true ↔ (s.btns .pair).evt = 1)
  covered : s.link.pairEn = false → ReleasePending s ∨ AdvertisesLast s.queue s.worker

theorem pairingOrder_boot (bonds acceptList : List Addr) :
    PairingOrder (boot bonds acceptList) := by
  constructor <;> simp [boot, AdvertisesLast]

/-- What a step does to the queue. -/
inductive QueueStep (s t : State) : Prop
  | kept (hq : t.queue = s.queue)
  | taken (w : Work) (hq : s.queue = w :: t.queue) (hw : t.worker = some ⟨w, 0⟩)
  | button (b : Button) (hq : t.queue = submit (.button b) s.queue)
  | advertise (hq : t.queue = submit .advertiseDCLK s.queue)
  | pair (hq : t.queue = submit .pairDCLK s.queue) (hw : s.worker = some ⟨.button .pair, 3⟩)

theorem queueStep {s t : State} {e : Event} (h : Step s e t) : QueueStep s t := by
  cases h
  case edge b level => exact .button b rfl
  case dequeue w q hw hq => exact .taken w hq rfl
  case dclkInit hw hr => exact .advertise rfl
  case connectFailed kept hw hp => exact .advertise rfl
  case disconnected hw hp => exact .advertise rfl
  case submitAdvertise r hw he => exact .advertise rfl
  case submitPair r hw he => exact .pair rfl hw
  all_goals exact .kept rfl

theorem mem_queue_step {s t : State} {e : Event} {w : Work} (hmem : w ∈ s.queue)
    (h : Step s e t) : w ∈ t.queue ∨ t.worker = some ⟨w, 0⟩ := by
  cases queueStep h with
  | kept hq => exact .inl (hq ▸ hmem)
  | taken v hq hw =>
      rw [hq] at hmem
      rcases List.mem_cons.mp hmem with rfl | hrest
      · exact .inr hw
      · exact .inl hrest
  | button b hq => exact .inl (hq ▸ mem_submit.mpr (.inl hmem))
  | advertise hq => exact .inl (hq ▸ mem_submit.mpr (.inl hmem))
  | pair hq hw => exact .inl (hq ▸ mem_submit.mpr (.inl hmem))

/-- The handler of the pair button that has set pair_en submits the work item. -/
theorem submitting_step {s t : State} {e : Event} (hw : s.worker = some ⟨.button .pair, 3⟩)
    (h : Step s e t) :
    (t.worker = some ⟨.button .pair, 3⟩ ∧ (t.btns .pair).evt = (s.btns .pair).evt) ∨
      ((s.btns .pair).evt = 1 ∧ .pairDCLK ∈ t.queue) ∨
      ((s.btns .pair).evt = 0 ∧ .advertiseDCLK ∈ t.queue) := by
  cases h
  case edge b level => exact .inl ⟨hw, State.buttonEventCb_evt b .pair level s⟩
  case submitPair r hw' he => exact .inr (.inl ⟨he, mem_submit.mpr (.inr rfl)⟩)
  case submitAdvertise r hw' he => exact .inr (.inr ⟨he, mem_submit.mpr (.inr rfl)⟩)
  case stopSleep r b pc hw' ha =>
    rw [hw] at hw'
    cases hw'
    cases ha
  all_goals first
    | exact .inl ⟨hw, rfl⟩
    | simp_all

theorem nodup_step {s t : State} {e : Event} (hi : s.queue.Nodup) (h : Step s e t) :
    t.queue.Nodup := by
  cases queueStep h with
  | kept hq => rwa [hq]
  | taken w hq hw =>
      rw [hq] at hi
      exact hi.of_cons
  | button b hq => exact hq ▸ nodup_submit hi
  | advertise hq => exact hq ▸ nodup_submit hi
  | pair hq hw => exact hq ▸ nodup_submit hi

theorem chain_step {s t : State} {e : Event} (hi : PairingOrder s) (h : Step s e t) :
    ¬ Chain t.queue (.button .pair) .advertiseDCLK .pairDCLK := by
  have hchain := hi.chain
  cases queueStep h with
  | kept hq => rwa [hq]
  | taken w hq hw =>
      rw [hq] at hchain
      exact fun hrest => hchain (chain_cons.mpr (.inl hrest))
  | button b hq =>
      rw [hq]
      exact not_chain_submit hchain (by simp)
  | advertise hq =>
      rw [hq]
      exact not_chain_submit hchain (by simp)
  | pair hq hw =>
      -- the handler that submits pair_DCLK finds no advertise_DCLK behind the button
      rw [hq]
      exact not_chain_submit hchain fun _ => (hi.handling 3 le_rfl hw).1

theorem handling_step {s t : State} {e : Event} (hi : PairingOrder s) (h : Step s e t) :
    ∀ pc ≤ 3, t.worker = some ⟨.button .pair, pc⟩ →
      ¬ Ahead t.queue (.button .pair) .advertiseDCLK ∧
        ¬ Ahead t.queue .advertiseDCLK .pairDCLK := by
  intro pc hpc hw
  cases h
  case edge b level =>
    obtain ⟨h1, h2⟩ := hi.handling pc hpc hw
    exact ⟨not_ahead_submit h1 (by simp), not_ahead_submit h2 (by simp)⟩
  case dequeue w q hw' hq =>
    obtain ⟨rfl, rfl⟩ : w = .button .pair ∧ pc = 0 := by
      cases hw
      exact ⟨rfl, rfl⟩
    have hnodup := hi.nodup
    have hchain := hi.chain
    rw [hq] at hnodup hchain
    constructor
    · exact fun hahead => (List.nodup_cons.mp hnodup).1 hahead.mem_left
    · exact fun hahead => hchain (chain_cons.mpr (.inr ⟨rfl, hahead⟩))
  case readVal r b hw' =>
    cases hw
    exact hi.handling 0 (by omega) hw'
  case callActive r b hw' ha =>
    cases hw
    exact hi.handling 1 (by omega) hw'
  case setPairEn r enable hw' he =>
    exact hi.handling 2 (by omega) hw'
  case submitPair r hw' he =>
    cases hw
    omega
  case submitAdvertise r hw' he =>
    cases hw
    omega
  -- in the others that handler goes on undisturbed, or it does not run
  all_goals first
    | exact hi.handling pc hpc hw
    | simp_all

theorem enabled_step {s t : State} {e : Event}
    (hi : s.worker = some ⟨.button .pair, 3⟩ → (s.link.pairEn = true ↔ (s.btns .pair).evt = 1))
    (h : Step s e t) (hw : t.worker = some ⟨.button .pair, 3⟩) :
    t.link.pairEn = true ↔ (t.btns .pair).evt = 1 := by
  cases h
  case edge b level => simpa using hi hw
  case setPairEn r enable hw' he => cases enable <;> simp_all [Link.exec]
  case connected peer kept hw' hp => simp [hw'] at hw
  case connectFailed kept hw' hp => simp [hw'] at hw
  case disconnected hw' hp => simp [hw'] at hw
  all_goals first
    | exact hi hw
    | simp_all

/-- Only dclk_pairing, called by the handler of the pair button, sets pair_en. -/
theorem pairEn_of_step {s t : State} {e : Event} (h : Step s e t) :
    t.link.pairEn = s.link.pairEn ∨
      ∃ enable, s.worker = some ⟨.button .pair, 2⟩ ∧ t.worker = some ⟨.button .pair, 3⟩ ∧
        t.queue = s.queue ∧ t.btns = s.btns ∧ t.link.pairEn = enable ∧
        (s.btns .pair).evt = if enable then 1 else 0 := by
  cases h
  case setPairEn r enable hw he => exact .inr ⟨enable, hw, rfl, rfl, rfl, rfl, he⟩
  case pairDCLK r pc st hw ha => exact .inl (Link.exec_pairEn (by cases ha <;> simp) r s.link)
  case advertiseDCLK r pc st hw ha => exact .inl (Link.exec_pairEn (by cases ha <;> simp) r s.link)
  all_goals exact .inl rfl

theorem covered_step {s t : State} {e : Event} (hi : PairingOrder s) (h : Step s e t)
    (hen : t.link.pairEn = false) : ReleasePending t ∨ AdvertisesLast t.queue t.worker := by
  rcases pairEn_of_step h with hsame | ⟨enable, -, hw, -, hbtns, henable, he⟩
  · -- pairing was disabled before, so the order was right already
    have hcov := hi.covered (hsame ▸ hen)
    cases h
    case edge b level =>
      rcases hcov with hrel | hlast
      · exact .inl ⟨hrel.1, by simpa using hrel.2⟩
      · exact .inr (hlast.submit (by simp))
    case dequeue w q hw hq =>
      rcases hcov with hrel | hlast
      · simp [hrel.1] at hw
      · rw [hq, hw] at hlast
        exact .inr hlast.dequeue
    case submitAdvertise r hw he =>
      have hnot := (hi.handling 3 le_rfl hw).2
      exact .inr (.inl (covers_submit_self hnot (by simp)))
    case submitPair r hw he =>
      have hon := (hi.enabled hw).mpr he
      simp [hon] at hen
    case dclkInit hw hr | connectFailed kept hw hp | disconnected hw hp =>
      rcases hcov with hrel | hlast
      · simp [hrel.1] at hw
      · exact .inr (hlast.submit (by simp))
    case stopSleep r b pc hw ha =>
      rcases hcov with hrel | hcov | ⟨hmem, -⟩
      · rw [hrel.1] at hw
        cases hw
        cases ha
      · exact .inr (.inl hcov)
      · exact .inr (.inr ⟨hmem, by simp⟩)
    -- the others leave the queue alone
    all_goals
      rcases hcov with hrel | hcov | ⟨hmem, hnot⟩
      · simp_all [ReleasePending]
      · exact .inr (.inl hcov)
      · exact .inr (.inr ⟨hmem, by simp_all⟩)
  · subst henable
    exact .inl ⟨hw, by rw [hbtns, he, hen]; rfl⟩

theorem pairingOrder_step {s t : State} {e : Event} (hi : PairingOrder s) (h : Step s e t) :
    PairingOrder t :=
  ⟨nodup_step hi.nodup h, chain_step hi h, handling_step hi h, enabled_step hi.enabled h,
    covered_step hi h⟩

end DodgeClock
