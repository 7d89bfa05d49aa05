import DodgeClock.EventSystem
import DodgeClock.Interface

/-!
# One button, seen alone

A line between a pin and a callback: the interrupt stores the level and asks for the
handler, which later turns the level stored by then into an event. A log records the
levels sampled and the events delivered, the latest first. No press is lost exactly if
the handler never reads a released button that was pressed since its previous read.
-/
namespace DodgeClock
open EventSystem

/-- `asOf` is the number of levels sampled before the handler read the level. -/
inductive Mark where
  | level (val : ℕ)
  | event (evt asOf : ℕ)
  deriving DecidableEq, Repr

def isLevel : Mark → Bool
  | .level _ => true
  | .event .. => false

def levels (log : List Mark) : ℕ := log.countP isLevel

@[simp] theorem levels_nil : levels [] = 0 := rfl

@[simp] theorem levels_level (val : ℕ) (log : List Mark) :
    levels (.level val :: log) = levels log + 1 := List.countP_cons_of_pos rfl

@[simp] theorem levels_event (evt asOf : ℕ) (log : List Mark) :
    levels (.event evt asOf :: log) = levels log :=
  List.countP_cons_of_neg Bool.false_ne_true

/-- Of what followed a press sampled as number `k + 1`: a push was delivered, and no
release sampled later than the press was delivered before it. -/
def Answered (k : ℕ) (post : List Mark) : Prop :=
  ∃ later n soon, post = later ++ .event 1 n :: soon ∧ ∀ m, .event 0 m ∈ soon → m ≤ k

/-- Every press of the log was answered. -/
def NoPressLost (log : List Mark) : Prop :=
  ∀ post val pre, log = post ++ .level val :: pre → val ≠ 0 → Answered (levels pre) post

/-- Neither a push nor a release sampled later than the press was delivered yet. -/
def Waiting (k : ℕ) (post : List Mark) : Prop :=
  (∀ n, .event 1 n ∉ post) ∧ ∀ m, .event 0 m ∈ post → m ≤ k

/-- Some press was not followed by a push yet. -/
def owed : List Mark → Bool
  | [] => false
  | .level val :: log => decide (val ≠ 0) || owed log
  | .event evt _ :: log => decide (evt ≠ 1) && owed log

theorem split_cons {x : Mark} {log post pre : List Mark} {val : ℕ}
    (h : x :: log = post ++ .level val :: pre) :
    (post = [] ∧ x = .level val ∧ log = pre) ∨
      ∃ rest, post = x :: rest ∧ log = rest ++ .level val :: pre := by
  cases post with
  | nil =>
      obtain ⟨rfl, rfl⟩ := List.cons.inj h
      exact .inl ⟨rfl, rfl, rfl⟩
  | cons y rest =>
      obtain ⟨rfl, hlog⟩ := List.cons.inj h
      exact .inr ⟨rest, rfl, hlog⟩

theorem owed_iff {log : List Mark} : owed log = true ↔
    ∃ post val pre, log = post ++ .level val :: pre ∧ val ≠ 0 ∧ ∀ n, .event 1 n ∉ post := by
  induction log with
  | nil => simp [owed]
  | cons x log ih =>
      constructor
      · intro h
        cases x with
        | level val =>
            by_cases hval : val = 0
            · obtain ⟨post, v, pre, rfl, hv, hno⟩ := ih.mp (by simpa [owed, hval] using h)
              exact ⟨.level val :: post, v, pre, rfl, hv, by simpa using hno⟩
            · exact ⟨[], val, log, rfl, hval, by simp⟩
        | event evt asOf =>
            obtain ⟨hevt, hrest⟩ : evt ≠ 1 ∧ owed log = true := by simpa [owed] using h
            obtain ⟨post, v, pre, rfl, hv, hno⟩ := ih.mp hrest
            refine ⟨.event evt asOf :: post, v, pre, rfl, hv, fun n hn => ?_⟩
            rcases List.mem_cons.mp hn with heq | hmem
            · cases heq
              exact hevt rfl
            · exact hno n hmem
      · rintro ⟨post, val, pre, hlog, hval, hno⟩
        rcases split_cons hlog with ⟨rfl, rfl, rfl⟩ | ⟨rest, rfl, rfl⟩
        · simp [owed, hval]
        · have hrest : owed (rest ++ .level val :: pre) = true :=
            ih.mpr ⟨rest, val, pre, rfl, hval, fun n hn => hno n (List.mem_cons_of_mem x hn)⟩
          cases x with
          | level v => simp [owed, hrest]
          | event evt asOf =>
              have hevt : evt ≠ 1 := by
                rintro rfl
                exact hno asOf (by simp)
              simp [owed, hrest, hevt]

/-- Every press was answered, or waits. -/
def Served (log : List Mark) : Prop :=
  ∀ post val pre, log = post ++ .level val :: pre → val ≠ 0 →
    Answered (levels pre) post ∨ Waiting (levels pre) post

/-- Every press still owed came when `n` levels had been sampled already. -/
def OwedSince (n : ℕ) (log : List Mark) : Prop :=
  ∀ post val pre, log = post ++ .level val :: pre → val ≠ 0 → (∀ m, .event 1 m ∉ post) →
    n ≤ levels pre

theorem Answered.cons {k : ℕ} {post : List Mark} (x : Mark) (h : Answered k post) :
    Answered k (x :: post) := by
  obtain ⟨later, n, soon, rfl, hsoon⟩ := h
  exact ⟨x :: later, n, soon, rfl, hsoon⟩

theorem Served.level {log : List Mark} (h : Served log) (v : ℕ) : Served (.level v :: log) := by
  intro post val pre hlog hval
  rcases split_cons hlog with ⟨rfl, -, -⟩ | ⟨rest, rfl, hrest⟩
  · exact .inr ⟨by simp, by simp⟩
  · rcases h rest val pre hrest hval with hans | hwait
    · exact .inl (hans.cons _)
    · exact .inr ⟨by simpa using hwait.1, by simpa using hwait.2⟩

/-- A push answers whatever waited. -/
theorem Served.push {log : List Mark} (h : Served log) (n : ℕ) : Served (.event 1 n :: log) := by
  intro post val pre hlog hval
  rcases split_cons hlog with ⟨-, hx, -⟩ | ⟨rest, rfl, hrest⟩
  · cases hx
  · rcases h rest val pre hrest hval with hans | hwait
    · exact .inl (hans.cons _)
    · exact .inl ⟨[], n, rest, rfl, hwait.2⟩

theorem Served.release {log : List Mark} (h : Served log) {n : ℕ} (hn : OwedSince n log) :
    Served (.event 0 n :: log) := by
  intro post val pre hlog hval
  rcases split_cons hlog with ⟨-, hx, -⟩ | ⟨rest, rfl, hrest⟩
  · cases hx
  · rcases h rest val pre hrest hval with hans | hwait
    · exact .inl (hans.cons _)
    · refine .inr ⟨by simpa using hwait.1, fun m hm => ?_⟩
      rcases List.mem_cons.mp hm with heq | hmem
      · cases heq
        exact hn rest val pre hrest hval hwait.1
      · exact hwait.2 m hmem

theorem OwedSince.level {n : ℕ} {log : List Mark} (h : OwedSince n log) (hn : n ≤ levels log)
    (v : ℕ) : OwedSince n (.level v :: log) := by
  intro post val pre hlog hval hno
  rcases split_cons hlog with ⟨-, -, rfl⟩ | ⟨rest, rfl, hrest⟩
  · exact hn
  · exact h rest val pre hrest hval fun m hm => hno m (List.mem_cons_of_mem _ hm)

theorem owedSince_of_not_owed {log : List Mark} (h : owed log = false) (n : ℕ) :
    OwedSince n log := by
  intro post val pre hlog hval hno
  have hyes : owed log = true := owed_iff.mpr ⟨post, val, pre, hlog, hval, hno⟩
  rw [h] at hyes
  cases hyes

theorem noPressLost_of_served {log : List Mark} (h : Served log) (ho : owed log = false) :
    NoPressLost log := by
  intro post val pre hlog hval
  rcases h post val pre hlog hval with hans | hwait
  · exact hans
  · have hyes : owed log = true := owed_iff.mpr ⟨post, val, pre, hlog, hval, hwait.1⟩
    rw [ho] at hyes
    cases hyes

/-- A release sampled later than some press was delivered before any push. -/
def Lost (log : List Mark) : Prop :=
  ∃ later n soon val pre, log = later ++ .event 0 n :: (soon ++ .level val :: pre) ∧ val ≠ 0 ∧
    (∀ m, .event 1 m ∉ soon) ∧ levels pre < n

theorem Lost.cons {log : List Mark} (x : Mark) (h : Lost log) : Lost (x :: log) := by
  obtain ⟨later, n, soon, val, pre, rfl, hrest⟩ := h
  exact ⟨x :: later, n, soon, val, pre, rfl, hrest⟩

/-- Two ways to split a list: if `y` is not behind `x`, then `x` is behind `y`. -/
theorem mem_of_splits {x y : Mark} {l r l' r' : List Mark} (h : l ++ x :: r = l' ++ y :: r')
    (hne : x ≠ y) (hy : y ∉ r) : x ∈ r' := by
  rcases List.append_eq_append_iff.mp h with ⟨a, -, hr⟩ | ⟨a, -, hr⟩
  · cases a with
    | nil => exact absurd (List.cons.inj hr).1 hne
    | cons z a =>
        have hmem : y ∈ r := by simp [(List.cons.inj hr).2]
        exact absurd hmem hy
  · cases a with
    | nil => exact absurd (List.cons.inj hr).1.symm hne
    | cons z a => simp [(List.cons.inj hr).2]

theorem not_noPressLost_of_lost {log : List Mark} (h : Lost log) : ¬ NoPressLost log := by
  obtain ⟨later, n, soon, val, pre, hlog, hval, hno, hlt⟩ := h
  intro hall
  obtain ⟨later', m, soon', hsplit, hle⟩ := hall (later ++ .event 0 n :: soon) val pre
    (by simp [hlog]) hval
  -- no push precedes the release, so the one that answers the press follows it
  have hmem : .event 0 n ∈ soon' := mem_of_splits hsplit (by simp) (hno m)
  exact absurd (hle n hmem) (not_le.mpr hlt)

/-- Whether the handler has been called and how far it has come. -/
inductive Stage where
  | idle | started | read
  deriving DecidableEq, Repr

structure Line where
  val : ℕ
  evt : ℕ
  asOf : ℕ
  queued : Bool
  stage : Stage
  log : List Mark
  deriving DecidableEq, Repr

inductive LineEvent where
  | sample (val : ℕ)
  | start
  | read
  | deliver
  deriving DecidableEq, Repr

def line : Machine Line LineEvent where
  step
    | s, .sample val => some { s with val := val, queued := true, log := .level val :: s.log }
    | s, .start =>
        if s.queued = true ∧ s.stage = .idle then some { s with queued := false, stage := .started }
        else none
    | s, .read =>
        if s.stage = .started then
          some { s with evt := evtOf s.val, asOf := levels s.log, stage := .read }
        else none
    | s, .deliver =>
        if s.stage = .read then
          some { s with log := .event s.evt s.asOf :: s.log, stage := .idle }
        else none

section Steps
variable {s t : Line}

theorem line_start : line.step s .start = some t ↔
    (s.queued = true ∧ s.stage = .idle) ∧ t = { s with queued := false, stage := .started } := by
  simp only [line, Option.ite_none_right_eq_some, Option.some.injEq]
  exact and_congr_right fun _ => eq_comm

theorem line_read : line.step s .read = some t ↔ s.stage = .started ∧
    t = { s with evt := evtOf s.val, asOf := levels s.log, stage := .read } := by
  simp only [line, Option.ite_none_right_eq_some, Option.some.injEq]
  exact and_congr_right fun _ => eq_comm

theorem line_deliver : line.step s .deliver = some t ↔ s.stage = .read ∧
    t = { s with log := .event s.evt s.asOf :: s.log, stage := .idle } := by
  simp only [line, Option.ite_none_right_eq_some, Option.some.injEq]
  exact and_congr_right fun _ => eq_comm

end Steps

/-- The handler does not read a released button while a press is owed. -/
def ReadsInTime (s : Line) (e : LineEvent) : Prop :=
  e = .read → s.val = 0 → owed s.log = false

instance (s : Line) (e : LineEvent) : Decidable (ReadsInTime s e) :=
  inferInstanceAs (Decidable (_ → _))

/-- A press still owed will be answered. -/
structure Answers (s : Line) : Prop where
  served : Served s.log
  live : owed s.log = true → s.queued = true ∨ s.stage = .started ∨ (s.stage = .read ∧ s.evt = 1)
  past : s.asOf ≤ levels s.log
  read : s.stage = .read → s.evt = 1 ∨ (s.evt = 0 ∧ OwedSince s.asOf s.log)

theorem levels_le_cons (x : Mark) (log : List Mark) : levels log ≤ levels (x :: log) := by
  unfold levels
  rw [List.countP_cons]
  omega

theorem answers_step {s t : Line} {e : LineEvent} (hi : Answers s) (hc : ReadsInTime s e)
    (h : line.step s e = some t) : Answers t := by
  obtain ⟨hserved, hlive, hpast, hread⟩ := hi
  cases e with
  | sample val =>
      obtain rfl := Option.some.inj h
      refine ⟨hserved.level val, fun _ => .inl rfl, ?_, fun hst => ?_⟩
      · exact le_trans hpast (levels_le_cons _ s.log)
      · exact (hread hst).imp id (And.imp id fun hsince => hsince.level hpast val)
  | start =>
      obtain ⟨-, rfl⟩ := line_start.mp h
      exact ⟨hserved, fun _ => .inr (.inl rfl), hpast, by simp⟩
  | read =>
      obtain ⟨hst, rfl⟩ := line_read.mp h
      by_cases hval : s.val = 0
      · have hnot : owed s.log = false := hc rfl hval
        refine ⟨hserved, fun ho => ?_, le_rfl, fun _ => ?_⟩
        · rw [hnot] at ho
          cases ho
        · exact .inr ⟨by simp [hval], owedSince_of_not_owed hnot _⟩
      · have hone : evtOf s.val = 1 := evtOf_eq_one.mpr hval
        exact ⟨hserved, fun _ => .inr (.inr ⟨rfl, hone⟩), le_rfl, fun _ => .inl hone⟩
  | deliver =>
      obtain ⟨hst, rfl⟩ := line_deliver.mp h
      have hle := le_trans hpast (levels_le_cons (.event s.evt s.asOf) s.log)
      rcases hread hst with h1 | ⟨h0, hsince⟩
      · refine ⟨by simpa only [h1] using hserved.push s.asOf, ?_, hle, by simp⟩
        simp [owed, h1]
      · refine ⟨by simpa only [h0] using hserved.release hsince, ?_, hle, by simp⟩
        intro ho
        have hold : owed s.log = true := by simpa [owed, h0] using ho
        rcases hlive hold with hq | hs | ⟨-, h1⟩
        · exact .inl hq
        · rw [hst] at hs
          cases hs
        · rw [h0] at h1
          cases h1

/-- A release read in spite of an owed press is on its way, or was delivered. -/
def Doomed (s : Line) : Prop :=
  Lost s.log ∨ (s.stage = .read ∧ s.evt = 0 ∧
    ∃ soon val pre, s.log = soon ++ .level val :: pre ∧ val ≠ 0 ∧ (∀ m, .event 1 m ∉ soon) ∧
      levels pre < s.asOf)

theorem doomed_step {s t : Line} {e : LineEvent} (hi : Doomed s)
    (h : line.step s e = some t) : Doomed t := by
  cases e with
  | sample val =>
      obtain rfl := Option.some.inj h
      rcases hi with hlost | ⟨hst, h0, soon, v, pre, hlog, hv, hno, hlt⟩
      · exact .inl (hlost.cons _)
      · refine .inr ⟨hst, h0, .level val :: soon, v, pre, ?_, hv, by simpa using hno, hlt⟩
        simp [hlog]
  | start =>
      obtain ⟨⟨-, hidle⟩, rfl⟩ := line_start.mp h
      rcases hi with hlost | ⟨hst, -⟩
      · exact .inl hlost
      · rw [hidle] at hst
        cases hst
  | read =>
      obtain ⟨hstarted, rfl⟩ := line_read.mp h
      rcases hi with hlost | ⟨hst, -⟩
      · exact .inl hlost
      · rw [hstarted] at hst
        cases hst
  | deliver =>
      obtain ⟨-, rfl⟩ := line_deliver.mp h
      rcases hi with hlost | ⟨-, h0, soon, v, pre, hlog, hv, hno, hlt⟩
      · exact .inl (hlost.cons _)
      · exact .inl ⟨[], s.asOf, soon, v, pre, by simp [hlog, h0], hv, hno, hlt⟩

/-- Reading a released button while a press is owed dooms the line. -/
theorem doomed_of_read {s t : Line} {e : LineEvent} (hc : ¬ ReadsInTime s e)
    (h : line.step s e = some t) : Doomed t := by
  obtain ⟨rfl, hval, howed⟩ : e = .read ∧ s.val = 0 ∧ owed s.log = true := by
    simpa [ReadsInTime] using hc
  obtain ⟨-, rfl⟩ := line_read.mp h
  obtain ⟨post, v, pre, hlog, hv, hno⟩ := owed_iff.mp howed
  refine .inr ⟨rfl, by simp [hval], post, v, pre, hlog, hv, hno, ?_⟩
  show levels pre < levels s.log
  have happ : levels (post ++ .level v :: pre) = levels post + levels (.level v :: pre) :=
    List.countP_append
  rw [hlog, happ, levels_level]
  omega

/-- A line on which nothing happened yet. -/
structure Line.Fresh (s : Line) : Prop where
  evt : s.evt = 0
  asOf : s.asOf = 0
  queued : s.queued = false
  stage : s.stage = .idle
  log : s.log = []

theorem answers_of_fresh {s : Line} (h : s.Fresh) : Answers s := by
  refine ⟨?_, ?_, ?_, ?_⟩
  · intro post val pre hlog
    simp [h.log] at hlog
  · simp [h.log, owed]
  · simp [h.asOf]
  · simp [h.stage]

/-- Over any run that ends with no work pending, no press was lost exactly if the
handler always read in time. -/
theorem noPressLost_iff_meets {s t : Line} {es : List LineEvent} (hs : s.Fresh)
    (hrun : line.run s es = some t) (hq : t.queued = false) (hst : t.stage = .idle) :
    NoPressLost t.log ↔ line.Meets ReadsInTime s es := by
  constructor
  · intro hall
    by_contra hc
    obtain ⟨before, e, after, m, n, -, -, he, hn, hend⟩ := Machine.exists_of_not_meets hrun hc
    have hdoomed : Doomed t :=
      Machine.run_invariant' (fun _ _ _ hi h => doomed_step hi h) hend (doomed_of_read he hn)
    rcases hdoomed with hlost | ⟨hread, -⟩
    · exact not_noPressLost_of_lost hlost hall
    · rw [hst] at hread
      cases hread
  · intro hc
    have hinv : Answers t :=
      Machine.run_invariant (fun _ _ _ hi hc h => answers_step hi hc h) hrun hc
        (answers_of_fresh hs)
    refine noPressLost_of_served hinv.served ?_
    cases ho : owed t.log with
    | false => rfl
    | true =>
        rcases hinv.live ho with hqueued | hstarted | ⟨hread, -⟩
        · rw [hq] at hqueued
          cases hqueued
        · rw [hst] at hstarted
          cases hstarted
        · rw [hst] at hread
          cases hread

section LastLevel

def lastVal : List Mark → Option ℕ
  | [] => none
  | .level val :: _ => some val
  | .event .. :: log => lastVal log

/-- The event is the one made of the last level, unless the handler has yet to read it. -/
structure UpToDate (s : Line) : Prop where
  untouched : lastVal s.log = none → s.evt = 0 ∧ s.queued = false ∧ s.stage = .idle
  val : ∀ v, lastVal s.log = some v → s.val = v
  evt : ∀ v, lastVal s.log = some v → s.queued = true ∨ s.stage = .started ∨ s.evt = evtOf v

theorem upToDate_of_fresh {s : Line} (h : s.Fresh) : UpToDate s :=
  ⟨fun _ => ⟨h.evt, h.queued, h.stage⟩, by simp [h.log, lastVal], by simp [h.log, lastVal]⟩

/-- The handler runs on a level that was sampled. -/
theorem UpToDate.val_eq_zero {s : Line} (h : UpToDate s) (hst : s.stage = .started) :
    s.val = 0 ↔ lastVal s.log = some 0 := by
  cases hlast : lastVal s.log with
  | none =>
      have hidle := (h.untouched hlast).2.2
      rw [hst] at hidle
      cases hidle
  | some v => simp [h.val v hlast]

theorem upToDate_step {s t : Line} {e : LineEvent} (hi : UpToDate s)
    (h : line.step s e = some t) : UpToDate t := by
  obtain ⟨hun, hval, hevt⟩ := hi
  cases e with
  | sample v =>
      obtain rfl := Option.some.inj h
      exact ⟨by simp [lastVal], by simp [lastVal], fun _ _ => .inl rfl⟩
  | start =>
      obtain ⟨⟨hq, -⟩, rfl⟩ := line_start.mp h
      refine ⟨fun hl => ?_, hval, fun _ _ => .inr (.inl rfl)⟩
      have hnot := (hun hl).2.1
      simp [hnot] at hq
  | read =>
      obtain ⟨hst, rfl⟩ := line_read.mp h
      refine ⟨fun hl => ?_, hval, fun v hl => .inr (.inr ?_)⟩
      · have hidle := (hun hl).2.2
        simp [hidle] at hst
      · show evtOf s.val = evtOf v
        rw [hval v hl]
  | deliver =>
      obtain ⟨hst, rfl⟩ := line_deliver.mp h
      refine ⟨fun hl => ?_, hval, fun v hl => ?_⟩
      · have hidle := (hun hl).2.2
        simp [hidle] at hst
      · rcases hevt v hl with hq | hstarted | he
        · exact .inl hq
        · simp [hstarted] at hst
        · exact .inr (.inr he)

end LastLevel

section Schedule

/-- The level stored by the last edge; the past has the latest event first. -/
def lastSample : (past : List LineEvent) → Option ℕ
  | [] => none
  | .sample val :: _ => some val
  | .start :: past | .read :: past | .deliver :: past => lastSample past

/-- The last read has found the button pressed. -/
def readPress : (past : List LineEvent) → Bool
  | [] => false
  | .read :: past => decide (lastSample past ≠ some 0)
  | .sample _ :: past | .start :: past | .deliver :: past => readPress past

/-- What has happened since the last read, or, if that found the button pressed, since the
delivery that followed it. -/
def sinceRead (past : List LineEvent) : List LineEvent :=
  past.takeWhile fun e => decide (e ≠ if readPress past = true then .deliver else .read)

def LineEvent.isPress : LineEvent → Bool
  | .sample val => decide (val ≠ 0)
  | .start | .read | .deliver => false

/-- If the button is released now, it was not pressed since the last read. -/
def InTime (past : List LineEvent) : Prop :=
  lastSample past = some 0 → ∀ e ∈ sinceRead past, e.isPress = false

instance (past : List LineEvent) : Decidable (InTime past) :=
  inferInstanceAs (Decidable (_ → _))

/-- Every read of the events that follow the past is in time. -/
def AlwaysInTime : (past es : List LineEvent) → Prop
  | _, [] => True
  | past, e :: es => (e = .read → InTime past) ∧ AlwaysInTime (e :: past) es

instance AlwaysInTime.decidable : (past es : List LineEvent) → Decidable (AlwaysInTime past es)
  | _, [] => .isTrue trivial
  | past, e :: es =>
      have : Decidable (AlwaysInTime (e :: past) es) := AlwaysInTime.decidable (e :: past) es
      inferInstanceAs (Decidable (_ ∧ _))

/-- The presses since the last read are those still owed, unless the handler is about to
deliver one. -/
structure Follows (past : List LineEvent) (s : Line) : Prop where
  upToDate : UpToDate s
  last : lastSample past = lastVal s.log
  evt : s.stage = .read → (s.evt = 1 ↔ readPress past = true)
  owed : ¬ (s.stage = .read ∧ readPress past = true) →
    (owed s.log = true ↔ ∃ e ∈ sinceRead past, e.isPress = true)

variable {s t : Line} {past : List LineEvent}

theorem sinceRead_cons {e : LineEvent} (hread : e ≠ .read)
    (hdeliver : e = .deliver → readPress past = false) :
    sinceRead (e :: past) = e :: sinceRead past := by
  have hsame : readPress (e :: past) = readPress past := by
    cases e with
    | read => exact absurd rfl hread
    | sample | start | deliver => rfl
  unfold sinceRead
  rw [hsame, List.takeWhile_cons_of_pos]
  by_cases hpress : readPress past = true
  · simpa [hpress] using hdeliver
  · simpa [hpress] using hread

/-- A read is in time exactly if no press is owed. -/
theorem readsInTime_iff {e : LineEvent} (hi : Follows past s) (h : line.step s e = some t) :
    ReadsInTime s e ↔ (e = .read → InTime past) := by
  refine forall_congr' fun he => ?_
  subst he
  obtain ⟨hst, -⟩ := line_read.mp h
  have howed := hi.owed (by simp [hst])
  rw [InTime, hi.last, hi.upToDate.val_eq_zero hst, ← Bool.not_eq_true, howed]
  simp

theorem follows_step {e : LineEvent} (hi : Follows past s) (hc : ReadsInTime s e)
    (h : line.step s e = some t) : Follows (e :: past) t := by
  obtain ⟨hup, hlast, hevt, howed⟩ := hi
  have hup' := upToDate_step hup h
  cases e with
  | sample val =>
      obtain rfl := Option.some.inj h
      refine ⟨hup', rfl, hevt, fun hno => ?_⟩
      rw [sinceRead_cons (by simp) (by simp)]
      simp [DodgeClock.owed, LineEvent.isPress, howed hno]
  | start =>
      obtain ⟨⟨-, hidle⟩, rfl⟩ := line_start.mp h
      refine ⟨hup', hlast, by simp, fun _ => ?_⟩
      rw [sinceRead_cons (by simp) (by simp)]
      simp [LineEvent.isPress, howed (by simp [hidle])]
  | read =>
      obtain ⟨hst, rfl⟩ := line_read.mp h
      have hval : s.val = 0 ↔ lastSample past = some 0 := by
        rw [hlast]
        exact hup.val_eq_zero hst
      refine ⟨hup', hlast, fun _ => ?_, fun hno => ?_⟩
      · simp [readPress, evtOf_eq_one, ← hval]
      · have hzero : s.val = 0 := by simpa [readPress, ← hval] using hno
        have hnone := hc rfl hzero
        have hpress : readPress (.read :: past) = false := by simp [readPress, ← hval, hzero]
        simp [hnone, sinceRead, hpress]
  | deliver =>
      obtain ⟨hst, rfl⟩ := line_deliver.mp h
      refine ⟨hup', hlast, by simp, fun _ => ?_⟩
      cases hpress : readPress past with
      | true =>
          have hone : s.evt = 1 := (hevt hst).mpr hpress
          have hsame : readPress (.deliver :: past) = true := hpress
          simp [DodgeClock.owed, hone, sinceRead, hsame]
      | false =>
          have hne : s.evt ≠ 1 := fun hone => by simp [(hevt hst).mp hone] at hpress
          rw [sinceRead_cons (by simp) fun _ => hpress]
          simp [DodgeClock.owed, hne, LineEvent.isPress, howed (by simp [hpress])]

theorem meets_iff_alwaysInTime {es : List LineEvent} (hi : Follows past s)
    (hrun : line.run s es = some t) : line.Meets ReadsInTime s es ↔ AlwaysInTime past es := by
  induction es generalizing past s with
  | nil => exact iff_of_true trivial trivial
  | cons e es ih =>
      obtain ⟨m, hm, hrest⟩ := line.run_cons_eq_some.mp hrun
      have hhead := readsInTime_iff hi hm
      simp only [Machine.Meets, hm, AlwaysInTime, hhead]
      exact and_congr_right fun hc => ih (follows_step hi (hhead.mpr hc) hm) hrest

theorem follows_of_fresh (h : s.Fresh) : Follows [] s :=
  ⟨upToDate_of_fresh h, by simp [h.log, lastSample, lastVal], by simp [h.stage],
    by simp [h.log, DodgeClock.owed, sinceRead]⟩

end Schedule

end DodgeClock
