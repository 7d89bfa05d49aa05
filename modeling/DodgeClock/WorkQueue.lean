import DodgeClock.Advertising

/-!
# The work queue goes on

The system work queue holds every item at most once and runs the items one after the
other, each to its end. It never gets stuck, and an item that has been submitted is
started after a bounded number of steps of the queue, whatever is submitted meanwhile.
-/
namespace DodgeClock
open EventSystem OneShotTimer OnceQueue

/-- All work items. -/
def Work.all : List Work :=
  [.button .pair, .button .user, .button .start, .button .stop, .pairDCLK, .advertiseDCLK]

theorem Work.mem_all (w : Work) : w ∈ Work.all := by
  cases w with
  | button b => cases b <;> decide
  | pairDCLK | advertiseDCLK => decide

/-- No handler has more statements. -/
def maxStmts : ℕ := 5

theorem length_program_le (s : State) (w : Work) : (s.program w).length ≤ maxStmts := by
  cases w with
  | pairDCLK | advertiseDCLK =>
      simp [State.program, DodgeClock.pairDCLK, DodgeClock.advertiseDCLK, maxStmts]
  | button b =>
      cases b with
      | pair =>
          simp only [State.program, handleButtonEvent, activeFunc, pairCb, dclkPairing]
          split_ifs <;> decide
      | user => simp [State.program, handleButtonEvent, activeFunc, userCb, maxStmts]
      | start =>
          simp only [State.program, handleButtonEvent, activeFunc, startCb]
          split_ifs <;> decide
      | stop =>
          simp only [State.program, handleButtonEvent, activeFunc, stopCb]
          split_ifs <;> decide

/-- What is known of the work queue in every reachable state: nothing is queued twice, and
a handler that runs has a statement to execute. -/
structure QueueSound (s : State) : Prop where
  nodup : s.queue.Nodup
  running : ∀ f, s.worker = some f → f.pc < (s.program f.item).length

theorem queueSound_boot (bonds acceptList : List Addr) : QueueSound (boot bonds acceptList) :=
  ⟨List.nodup_nil, fun f hf => by simp [boot] at hf⟩

section Step
variable {s t : State} {e : Event}

/-- A handler is left where its next statement is, or at its end. -/
theorem running_step (hi : ∀ f, s.worker = some f → f.pc < (s.program f.item).length)
    (h : Step s e t) : ∀ f, t.worker = some f → f.pc < (t.program f.item).length := by
  cases h
  case edge b level =>
    intro f hf
    have hlt := hi f hf
    obtain ⟨item, pc⟩ := f
    cases item <;> simpa [State.program, State.buttonEventCb_evt] using hlt
  case dequeue w q hw hq =>
    intro f hf
    obtain rfl := Option.some.inj hf
    cases w <;> simp [State.program, handleButtonEvent, DodgeClock.pairDCLK,
      DodgeClock.advertiseDCLK]
  case readVal r b hw =>
    intro f hf
    obtain rfl := Option.some.inj hf
    simp [State.program, handleButtonEvent]
  case callActive r b hw ha =>
    intro f hf
    obtain rfl := Option.some.inj hf
    have hpos := List.length_pos_iff.mpr ha
    simpa [State.program, handleButtonEvent] using hpos
  case setPairEn r enable hw he =>
    intro f hf
    obtain rfl := Option.some.inj hf
    cases enable <;> simp [State.program, handleButtonEvent, activeFunc, pairCb, dclkPairing, he]
  case submitPair r hw he | submitAdvertise r hw he =>
    intro f hf
    obtain rfl := Option.some.inj hf
    simp [State.program, handleButtonEvent, activeFunc, pairCb, dclkPairing, he]
  case startState r hw he | startTimer r hw he =>
    intro f hf
    obtain rfl := Option.some.inj hf
    simp [State.program, handleButtonEvent, activeFunc, startCb, he]
  case stopSave r hw he | stopTimer r hw he =>
    intro f hf
    obtain rfl := Option.some.inj hf
    simp [State.program, handleButtonEvent, activeFunc, stopCb, he]
  case pairDCLK r pc st hw ha | advertiseDCLK r pc st hw ha =>
    intro f hf
    have hlt := hi _ hw
    have hlast : pc ≠ 2 := by
      rintro rfl
      simp at hf
    rw [if_neg hlast] at hf
    obtain rfl := Option.some.inj hf
    simp only [State.program, List.length_map, DodgeClock.pairDCLK, DodgeClock.advertiseDCLK,
      List.length_cons, List.length_nil] at hlt ⊢
    omega
  case callActiveEmpty | stopSleep | stopState =>
    intro f hf
    cases hf
  all_goals exact hi

theorem queueSound_step (hi : QueueSound s) (h : Step s e t) : QueueSound t :=
  ⟨nodup_step hi.nodup h, running_step hi.running h⟩

end Step

theorem QueueSound.run {s t : State} {es : List Event} (hi : QueueSound s)
    (hrun : controller.run s es = some t) : QueueSound t :=
  Machine.run_invariant' (fun _ _ _ hi h => queueSound_step hi (step_inv h)) hrun hi

theorem queueSound_of_run {bonds acceptList : List Addr} {es : List Event} {s : State}
    (hrun : controller.run (boot bonds acceptList) es = some s) : QueueSound s :=
  (queueSound_boot bonds acceptList).run hrun

/-- A step of the thread of the work queue. -/
def Event.IsWork : Event → Prop
  | .dequeue | .stmt _ => True
  | _ => False

instance Event.IsWork.decidable : (e : Event) → Decidable e.IsWork
  | .dequeue | .stmt _ => .isTrue trivial
  | .edge _ _ | .dExpire | .sleepExpire | .elapse _ | .dclkInit | .arm | .connected _ _
  | .connectFailed _ | .disconnected | .bonded => .isFalse id

theorem QueueSound.stmt_enabled {s : State} {f : Frame} (hi : QueueSound s) (hoff : s.off = false)
    (hw : s.worker = some f) (r : BtResults) : ∃ t, controller.step s (.stmt r) = some t := by
  have hlt := hi.running f hw
  have hnext : s.next = some (s.program f.item)[f.pc] := by simp [State.next, hw, hlt]
  exact ⟨_, by simp only [controller, hoff, hw, hnext]; rfl⟩

/-- Unless it is idle, the thread of the work queue has a step to take. -/
theorem QueueSound.enabled {s : State} (hi : QueueSound s) (hoff : s.off = false)
    (hbusy : ¬ Drained s) : ∃ e t, e.IsWork ∧ controller.step s e = some t := by
  cases hw : s.worker with
  | none =>
      have hne : s.queue ≠ [] := fun hq => hbusy ⟨hq, hw⟩
      obtain ⟨w, q, hq⟩ := List.exists_cons_of_ne_nil hne
      exact ⟨.dequeue, _, trivial, by simp only [controller, hoff, hw, hq]; rfl⟩
  | some f =>
      obtain ⟨t, ht⟩ := hi.stmt_enabled hoff hw .success
      exact ⟨.stmt .success, t, trivial, ht⟩

section Waiting
variable {s t : State} {e : Event} {es : List Event} {w : Work}

/-- The step starts the handler of `w`. -/
def Starts (w : Work) (s : State) (e : Event) : Prop := e = .dequeue ∧ s.queue.head? = some w

instance (w : Work) (s : State) (e : Event) : Decidable (Starts w s e) :=
  inferInstanceAs (Decidable (_ ∧ _))

/-- An upper bound for the steps of the queue before the handler of `w` is started: the
statements left of the running handler, and whole handlers for the items ahead. -/
def rank (w : Work) (s : State) : ℕ :=
  (s.worker.elim 0 fun f => maxStmts - f.pc) + (maxStmts + 1) * s.queue.idxOf w

theorem queue_step (he : e ≠ .dequeue) (h : Step s e t) :
    t.queue = s.queue ∨ ∃ x, t.queue = submit x s.queue := by
  cases h
  case dequeue w q hw hq => exact absurd rfl he
  case edge | dclkInit | connectFailed | disconnected | submitPair | submitAdvertise =>
    exact .inr ⟨_, rfl⟩
  all_goals exact .inl rfl

/-- An item that waits keeps its place unless the front one is taken. -/
theorem place_step (he : e ≠ .dequeue) (hmem : w ∈ s.queue) (h : Step s e t) :
    w ∈ t.queue ∧ t.queue.idxOf w = s.queue.idxOf w := by
  rcases queue_step he h with hsame | ⟨x, hsubmit⟩
  · rw [hsame]
    exact ⟨hmem, rfl⟩
  · rw [hsubmit]
    exact ⟨mem_submit.mpr (.inl hmem), idxOf_submit hmem⟩

/-- A statement brings its handler forward, or is its last one. -/
theorem worker_stmt {r : BtResults} (h : Step s (.stmt r) t) :
    ∃ f, s.worker = some f ∧ ∀ g, t.worker = some g → g.pc = f.pc + 1 := by
  cases h
  case pairDCLK pc st hw ha | advertiseDCLK pc st hw ha =>
    refine ⟨_, hw, fun g hg => ?_⟩
    by_cases hlast : pc = 2
    · rw [if_pos hlast] at hg
      cases hg
    · rw [if_neg hlast] at hg
      exact (congrArg Frame.pc (Option.some.inj hg)).symm
  case callActiveEmpty b hw ha => exact ⟨_, hw, fun g hg => by cases hg⟩
  case stopSleep b pc hw ha => exact ⟨_, hw, fun g hg => by cases hg⟩
  case stopState hw he => exact ⟨_, hw, fun g hg => by cases hg⟩
  case readVal b hw => exact ⟨_, hw, fun g hg => (congrArg Frame.pc (Option.some.inj hg)).symm⟩
  case callActive b hw ha =>
    exact ⟨_, hw, fun g hg => (congrArg Frame.pc (Option.some.inj hg)).symm⟩
  all_goals exact ⟨_, ‹_›, fun g hg => (congrArg Frame.pc (Option.some.inj hg)).symm⟩

theorem worker_other (he : ¬ e.IsWork) (h : Step s e t) : t.worker = s.worker := by
  cases h
  case edge | dExpire | sleepExpire | elapse | dclkInit | arm | connected | connectFailed
      | disconnected | bonded => rfl
  all_goals exact absurd trivial he

/-- Every step of the queue brings an item that waits nearer to its start. -/
theorem rank_step (hi : QueueSound s) (hmem : w ∈ s.queue) (hnot : ¬ Starts w s e)
    (h : Step s e t) :
    w ∈ t.queue ∧ rank w t + (if e.IsWork then 1 else 0) ≤ rank w s := by
  by_cases hwork : e.IsWork
  · rw [if_pos hwork]
    cases e with
    | dequeue =>
        cases h with
        | dequeue hw hq =>
            rename_i x q
            have hne : x ≠ w := by
              rintro rfl
              exact hnot ⟨rfl, by rw [hq]; rfl⟩
            rw [hq] at hmem
            obtain ⟨htail, hplace⟩ := idxOf_tail hmem hne
            refine ⟨htail, ?_⟩
            simp only [rank, hw, hq, hplace, Option.elim_some, Option.elim_none, maxStmts]
            omega
    | stmt r =>
        obtain ⟨hqueue, hplace⟩ := place_step (by simp) hmem h
        obtain ⟨f, hf, hnext⟩ := worker_stmt h
        have hlt := hi.running f hf
        have hmax := length_program_le s f.item
        refine ⟨hqueue, ?_⟩
        simp only [rank, hplace, hf, Option.elim_some]
        cases hg : t.worker with
        | none =>
            simp only [Option.elim_none]
            omega
        | some g =>
            have hpc := hnext g hg
            simp only [Option.elim_some]
            omega
    | edge | dExpire | sleepExpire | elapse | dclkInit | arm | connected | connectFailed
    | disconnected | bonded => exact hwork.elim
  · have hne : e ≠ .dequeue := by
      rintro rfl
      exact hwork trivial
    obtain ⟨hqueue, hplace⟩ := place_step hne hmem h
    refine ⟨hqueue, ?_⟩
    simp [rank, hplace, worker_other hwork h, hwork]

theorem rank_le (hi : QueueSound s) (hmem : w ∈ s.queue) : rank w s ≤ 35 := by
  have hplace : s.queue.idxOf w < s.queue.length := List.idxOf_lt_length_of_mem hmem
  have hlen : s.queue.length ≤ Work.all.length :=
    (hi.nodup.subperm fun x _ => x.mem_all).length_le
  have hall : Work.all.length = 6 := rfl
  unfold rank maxStmts
  cases s.worker with
  | none =>
      simp only [Option.elim_none]
      omega
  | some f =>
      simp only [Option.elim_some]
      omega

end Waiting

/-- Whatever is submitted meanwhile, an item in the queue is started before the thread of
the queue has taken 36 steps. -/
theorem starts_of_waiting (bonds acceptList : List Addr) (before after : List Event)
    (s t : State) (w : Work)
    (hbefore : controller.run (boot bonds acceptList) before = some s) (hmem : w ∈ s.queue)
    (hafter : controller.run s after = some t)
    (hsteps : 36 ≤ after.countP fun e => decide e.IsWork) :
    ∃ waits goes m n, after = waits ++ .dequeue :: goes ∧ controller.run s waits = some m ∧
      controller.step m .dequeue = some n ∧ n.worker = some ⟨w, 0⟩ := by
  have hsound := queueSound_of_run hbefore
  have hle := rank_le hsound hmem
  have hnear : ∀ u e v, QueueSound u ∧ w ∈ u.queue → True → ¬ Starts w u e →
      controller.step u e = some v → (QueueSound v ∧ w ∈ v.queue) ∧
        rank w v + (if e.IsWork then 1 else 0) ≤ rank w u := by
    intro u e v hi _ hnot h
    obtain ⟨hqueue, hrank⟩ := rank_step hi.1 hi.2 hnot (step_inv h)
    exact ⟨⟨queueSound_step hi.1 (step_inv h), hqueue⟩, hrank⟩
  have hany : controller.Meets (fun _ _ => True) s after := .of_forall (fun _ _ => trivial) s after
  obtain ⟨waits, e, goes, m, n, rfl, -, hwaits, -, ⟨rfl, hhead⟩, -, hstep, -, -⟩ :=
    Machine.exists_of_rank hnear hafter hany ⟨hsound, hmem⟩ (by omega)
  refine ⟨waits, goes, m, n, rfl, hwaits, hstep, ?_⟩
  cases step_inv hstep with
  | dequeue hw hq =>
      rw [hq] at hhead
      rw [Option.some.inj hhead]

/-- The user button is pressed, and bounces on while its handler runs again and again. -/
def bouncingRun : List Event := work 2 ++ (List.replicate 11 (wholeEvent .user 1 2)).flatten

theorem starts_of_waiting_bouncing : ∃ s t,
    controller.run (boot [] []) [.edge .user 1] = some s ∧
      controller.run s bouncingRun = some t ∧
      ∃ waits goes m n, bouncingRun = waits ++ .dequeue :: goes ∧
        controller.run s waits = some m ∧ controller.step m .dequeue = some n ∧
        n.worker = some ⟨.button .user, 0⟩ :=
  ⟨_, _, rfl, rfl, starts_of_waiting [] [] [.edge .user 1] bouncingRun _ _ (.button .user) rfl
    (by decide) rfl (by decide)⟩

section Asked
variable {s t : State} {e : Event} {es : List Event}

/-- The most statements the handler of an item executes. -/
def Work.stmts : Work → ℕ
  | .button .user => 2
  | .button _ => 5
  | .pairDCLK | .advertiseDCLK => 3

/-- The steps a handler at `pc` may yet cause by a submission of its own. -/
def Work.brings : Work → ℕ → ℕ
  | .button .pair, pc => if pc ≤ 3 then 4 else 0
  | _, _ => 0

/-- The steps of the queue that a queued item may come to. -/
def Work.cost (w : Work) : ℕ := 1 + w.stmts + w.brings 0

/-- The steps of the queue that are asked for and not taken yet, at most. -/
def State.pending (s : State) : ℕ :=
  (s.queue.map Work.cost).sum +
    s.worker.elim 0 fun f => f.item.stmts - f.pc + f.item.brings f.pc

/-- The steps of the queue that an event from outside asks for. -/
def Event.asks : Event → ℕ
  | .edge b _ => (Work.button b).cost
  | .dclkInit | .connectFailed _ | .disconnected => Work.advertiseDCLK.cost
  | _ => 0

theorem length_program_le_stmts (s : State) (w : Work) : (s.program w).length ≤ w.stmts := by
  cases w with
  | pairDCLK | advertiseDCLK => exact le_rfl
  | button b =>
      cases b with
      | user => exact le_rfl
      | pair | start | stop => exact length_program_le s _

theorem Work.brings_succ_le (w : Work) (pc : ℕ) : w.brings (pc + 1) ≤ w.brings pc := by
  cases w with
  | pairDCLK | advertiseDCLK => exact le_rfl
  | button b =>
      cases b with
      | user | start | stop => exact le_rfl
      | pair =>
          simp only [brings]
          split_ifs <;> omega

theorem sum_cost_submit (w : Work) (q : List Work) :
    ((submit w q).map Work.cost).sum ≤ (q.map Work.cost).sum + w.cost := by
  unfold submit
  split_ifs <;> simp

/-- A statement that leaves the queue alone is one step less to take. -/
theorem pending_stmt {f : Frame} {w : Option Frame} (hw : s.worker = some f)
    (hlt : f.pc < f.item.stmts) (hqueue : t.queue = s.queue) (hworker : t.worker = w)
    (hnext : ∀ g, w = some g → g.item = f.item ∧ g.pc = f.pc + 1) :
    t.pending + 1 ≤ s.pending := by
  simp only [State.pending, hqueue, hworker, hw, Option.elim_some]
  cases w with
  | none =>
      simp only [Option.elim_none]
      omega
  | some g =>
      obtain ⟨hitem, hpc⟩ := hnext g rfl
      have hbrings := f.item.brings_succ_le f.pc
      simp only [Option.elim_some, hitem, hpc]
      omega

/-- A step takes one of the steps pending, or adds what its event asks for. -/
theorem pending_le_step (hi : QueueSound s) (h : Step s e t) :
    t.pending + (if e.IsWork then 1 else 0) ≤ s.pending + e.asks := by
  have hlt : ∀ f, s.worker = some f → f.pc < f.item.stmts :=
    fun f hf => (hi.running f hf).trans_le (length_program_le_stmts s f.item)
  cases h
  case edge b level =>
    have hle := sum_cost_submit (.button b) s.queue
    simp only [State.pending, State.buttonEventCb, Event.IsWork, Event.asks, ↓reduceIte]
    omega
  case dclkInit | connectFailed | disconnected =>
    have hle := sum_cost_submit .advertiseDCLK s.queue
    simp only [State.pending, Event.IsWork, Event.asks, ↓reduceIte]
    omega
  case dequeue w q hw hq =>
    simp only [State.pending, hw, hq, List.map_cons, List.sum_cons, Option.elim_some,
      Option.elim_none, Event.IsWork, Event.asks, Work.cost, ↓reduceIte]
    omega
  case submitPair r hw he =>
    have hle := sum_cost_submit .pairDCLK s.queue
    simp [State.pending, hw, Event.IsWork, Event.asks, Work.cost, Work.stmts, Work.brings] at hle ⊢
    omega
  case submitAdvertise r hw he =>
    have hle := sum_cost_submit .advertiseDCLK s.queue
    simp [State.pending, hw, Event.IsWork, Event.asks, Work.cost, Work.stmts, Work.brings] at hle ⊢
    omega
  case callActiveEmpty hw ha | stopSleep hw ha | stopState hw ha =>
    exact pending_stmt hw (hlt _ hw) rfl rfl (by simp)
  case pairDCLK hw ha | advertiseDCLK hw ha =>
    refine pending_stmt hw (hlt _ hw) rfl rfl fun g hg => ?_
    split_ifs at hg
    obtain rfl := Option.some.inj hg
    exact ⟨rfl, rfl⟩
  case readVal hw | callActive hw ha | setPairEn hw he | startState hw he | startTimer hw he
      | stopSave hw he | stopTimer hw he =>
    refine pending_stmt hw (hlt _ hw) rfl rfl fun g hg => ?_
    obtain rfl := Option.some.inj hg
    exact ⟨rfl, rfl⟩
  all_goals exact le_rfl

theorem pending_of_run (hi : QueueSound s) (hrun : controller.run s es = some t) :
    t.pending + es.countP (fun e => decide e.IsWork) ≤ s.pending + (es.map Event.asks).sum := by
  induction es generalizing s with
  | nil =>
      obtain rfl := Option.some.inj hrun
      simp
  | cons e es ih =>
      obtain ⟨m, hm, hrest⟩ := controller.run_cons_eq_some.mp hrun
      have hfirst := pending_le_step hi (step_inv hm)
      have hlater := ih (queueSound_step hi (step_inv hm)) hrest
      rw [List.countP_cons, List.map_cons, List.sum_cons]
      split_ifs at hfirst with hwork <;> simp only [hwork, decide_true, decide_false, if_true,
        Bool.false_eq_true, if_false] <;> omega

theorem drained_iff_pending (hi : QueueSound s) : Drained s ↔ s.pending = 0 := by
  constructor
  · rintro ⟨hqueue, hworker⟩
    simp [State.pending, hqueue, hworker]
  · intro hzero
    obtain ⟨hqueue, hworker⟩ : (s.queue.map Work.cost).sum = 0 ∧
        (s.worker.elim 0 fun f => f.item.stmts - f.pc + f.item.brings f.pc) = 0 :=
      Nat.add_eq_zero_iff.mp hzero
    constructor
    · cases hq : s.queue with
      | nil => rfl
      | cons w q => simp [hq, Work.cost] at hqueue
    · cases hw : s.worker with
      | none => rfl
      | some f =>
          have hlt := (hi.running f hw).trans_le (length_program_le_stmts s f.item)
          rw [hw, Option.elim_some] at hworker
          omega

theorem off_of_work (hwork : e.IsWork) (h : Step s e t) : t.off = s.off := by
  cases h
  case sleepExpire => exact hwork.elim
  all_goals rfl

theorem asks_of_work (hwork : e.IsWork) : e.asks = 0 := by
  cases e with
  | dequeue | stmt => rfl
  | edge | dExpire | sleepExpire | elapse | dclkInit | arm | connected | connectFailed
  | disconnected | bonded => exact hwork.elim

/-- Left alone, the thread of the queue takes one of the steps pending after the other. -/
theorem pending_of_alone (hi : QueueSound s) (hrun : controller.run s es = some t)
    (halone : ∀ e ∈ es, e.IsWork) : t.pending + es.length ≤ s.pending := by
  have hle := pending_of_run hi hrun
  have hcount : es.countP (fun e => decide e.IsWork) = es.length :=
    List.countP_eq_length.mpr fun e he => decide_eq_true (halone e he)
  have hasks : (es.map Event.asks).sum = 0 := by
    apply List.sum_eq_zero
    intro n hn
    obtain ⟨e, he, rfl⟩ := List.mem_map.mp hn
    exact asks_of_work (halone e he)
  omega

theorem off_of_alone (hrun : controller.run s es = some t) (halone : ∀ e ∈ es, e.IsWork)
    (hoff : s.off = false) : t.off = false :=
  Machine.run_invariant (I := fun s : State => s.off = false)
    (fun _ _ _ hi hwork h => (off_of_work hwork (step_inv h)).trans hi) hrun
    (.of_mem halone s) hoff

/-- The thread of the queue can take its steps until nothing is left to do. -/
theorem exists_drain (hi : QueueSound s) (hoff : s.off = false) :
    ∃ rest t, controller.run s rest = some t ∧ Drained t ∧ (∀ e ∈ rest, e.IsWork) ∧
      rest.length ≤ s.pending := by
  have hstep : ∀ s, QueueSound s ∧ s.off = false → ¬ Drained s → ∃ e t, e.IsWork ∧
      controller.step s e = some t ∧ (QueueSound t ∧ t.off = false) ∧ t.pending < s.pending := by
    rintro s ⟨hi, hoff⟩ hbusy
    obtain ⟨e, m, hwork, h⟩ := hi.enabled hoff hbusy
    have hless := pending_le_step hi (step_inv h)
    rw [if_pos hwork, asks_of_work hwork] at hless
    exact ⟨e, m, hwork, h, ⟨queueSound_step hi (step_inv h),
      (off_of_work hwork (step_inv h)).trans hoff⟩, by omega⟩
  obtain ⟨rest, t, hrun, hmeets, -, hdrained, hlen⟩ :=
    Machine.exists_run_of_rank hstep ⟨hi, hoff⟩
  exact ⟨rest, t, hrun, hdrained, hmeets.forall_mem hrun, hlen⟩

end Asked

/-- The thread of the queue takes no more steps than were asked for from outside, ten for
an edge of pair, six for one of start or stop, three for one of user and four for a
submission of advertise_DCLK. Left alone it takes no more than are pending, whichever it
has taken already, and can go on until it is done. -/
theorem work_le_asked (bonds acceptList : List Addr) (es : List Event) (s : State)
    (hrun : controller.run (boot bonds acceptList) es = some s) :
    es.countP (fun e => decide e.IsWork) + s.pending ≤ (es.map Event.asks).sum ∧
      (Drained s ↔ s.pending = 0) ∧
      (s.off = false → ∀ rest t, controller.run s rest = some t → (∀ e ∈ rest, e.IsWork) →
        ∃ more u, controller.run t more = some u ∧ Drained u ∧ (∀ e ∈ more, e.IsWork) ∧
          rest.length + more.length ≤ s.pending) := by
  have hsound := queueSound_of_run hrun
  refine ⟨?_, drained_iff_pending hsound, fun hoff rest t hrest halone => ?_⟩
  · have hle := pending_of_run (queueSound_boot bonds acceptList) hrun
    have hboot : (boot bonds acceptList).pending = 0 := rfl
    omega
  · obtain ⟨more, u, hmore, hdrained, hwork, hlen⟩ :=
      exists_drain (hsound.run hrest) (off_of_alone hrest halone hoff)
    have hle := pending_of_alone hsound hrest halone
    exact ⟨more, u, hmore, hdrained, hwork, by omega⟩

/-- Pair is pressed and released before its handler gets to its callback. -/
def bouncedPairRun : List Event := [.edge .pair 1, .dequeue, .stmt .success, .edge .pair 0]

/-- Two edges of pair cost the queue two handlers and what the second submits. Left alone,
the thread first takes an item. -/
theorem work_le_asked_bouncedPair : ∃ s t,
    controller.run (boot [] []) (bouncedPairRun ++ stmts 4) = some s ∧ s.pending = 14 ∧
      controller.run s [.dequeue] = some t ∧
      ∃ more u, controller.run t more = some u ∧ Drained u ∧ (∀ e ∈ more, e.IsWork) ∧
        1 + more.length ≤ s.pending :=
  ⟨_, _, rfl, by decide, rfl, (work_le_asked [] [] (bouncedPairRun ++ stmts 4) _ rfl).2.2 rfl
    [.dequeue] _ rfl (by decide)⟩

end DodgeClock
