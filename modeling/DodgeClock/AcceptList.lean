import DodgeClock.Link

/-!
# The accept list behind filtered advertising

setup_accept_list returns the number of bonds it has listed, or an error, and
advertise_DCLK starts to advertise if what it gets is positive. A failure of
bt_le_filter_accept_list_add is turned into a negative number, a failure of
bt_le_filter_accept_list_clear is passed on as it is: negative for an error of the
stack, positive for one of the protocol.
-/
namespace DodgeClock

/-- The first call that fails is the one for the bond `k`. -/
structure BtResults.FailsAt (r : BtResults) (k : ℕ) : Prop where
  before : ∀ i < k, r.added i = 0
  fails : r.added k ≠ 0

namespace Link

/-- The call of bt_le_adv_start a statement makes. -/
def advStartCall (l : Link) : LinkStmt → Option AdvMode
  | .advStart mode => some mode
  | .advStartIfAllowed => if 0 < l.allowedCnt then some .acceptList else none
  | _ => none

/-- The statements of a function, one after the other. -/
def execAll (r : BtResults) (sts : List LinkStmt) (l : Link) : Link :=
  sts.foldl (fun l st => l.exec r st) l

/-- The calls of bt_le_adv_start they make. -/
def advStartCalls (r : BtResults) : List LinkStmt → Link → List AdvMode
  | [], _ => []
  | st :: sts, l => (l.advStartCall st).toList ++ advStartCalls r sts (l.exec r st)

/-- Nothing but these calls starts to advertise. -/
theorem exec_adv {r : BtResults} {st : LinkStmt} {l : Link} {mode : AdvMode}
    (h : (l.exec r st).adv = some mode) : l.adv = some mode ∨ l.advStartCall st = some mode := by
  cases st with
  | advStop => cases h
  | setPairEn => exact .inl h
  | unpair | setupAcceptList =>
      left
      revert h
      simp only [exec, DodgeClock.setupAcceptList]
      split_ifs <;> exact id
  | advStart | advStartIfAllowed =>
      revert h
      simp only [exec, advStartCall, advStart_eq]
      split_ifs <;> simp +contextual

theorem execAll_adv {r : BtResults} {sts : List LinkStmt} {l : Link} {mode : AdvMode}
    (h : (l.execAll r sts).adv = some mode) :
    l.adv = some mode ∨ mode ∈ advStartCalls r sts l := by
  induction sts generalizing l with
  | nil => exact .inl h
  | cons st sts ih =>
      rcases ih h with hadv | hmem
      · rcases exec_adv hadv with hold | hcall
        · exact .inl hold
        · exact .inr (by simp [advStartCalls, hcall])
      · exact .inr (List.mem_append_right _ hmem)

/-- advertise_DCLK makes at most one call, with the filter. -/
theorem advStartCalls_advertiseDCLK (r : BtResults) (l : Link) :
    advStartCalls r advertiseDCLK l =
      if 0 < (DodgeClock.setupAcceptList r l).2 then [.acceptList] else [] := by
  have hstop : (DodgeClock.setupAcceptList r { l with adv := none }).2 =
      (DodgeClock.setupAcceptList r l).2 := by
    simp only [DodgeClock.setupAcceptList]
    split_ifs <;> rfl
  simp only [advStartCalls, advertiseDCLK, advStartCall, exec, hstop]
  split_ifs <;> rfl

theorem execAll_advertiseDCLK_acceptList (r : BtResults) (l : Link) :
    (l.execAll r advertiseDCLK).acceptList = (DodgeClock.setupAcceptList r l).1.acceptList := by
  simp only [execAll, advertiseDCLK, List.foldl, exec, advStart_eq, DodgeClock.setupAcceptList]
  split_ifs <;> rfl

end Link

section Fill
variable {f : Fill} {bonds : List Addr}

/-- The first failure ends the list, and it is what is returned. -/
theorem foldl_setupAcceptListCb_fails (hcnt : 0 ≤ f.bondCnt) {k : ℕ} (hk : k < bonds.length)
    (hbefore : ∀ i < k, f.results.getD i 0 = 0) (hfails : f.results.getD k 0 ≠ 0) :
    (bonds.foldl setupAcceptListCb f).list = f.list ++ bonds.take k ∧
      (bonds.foldl setupAcceptListCb f).bondCnt = -eio := by
  have hlen : (bonds.take k).length = k := List.length_take_of_le hk.le
  have htake : (bonds.take k).foldl setupAcceptListCb f =
      ⟨f.list ++ bonds.take k, f.bondCnt + k, f.results.drop k⟩ := by
    have h := @foldl_setupAcceptListCb_success f hcnt (bonds.take k) (by rwa [hlen])
    rwa [hlen] at h
  have hstep : setupAcceptListCb ⟨f.list ++ bonds.take k, f.bondCnt + k, f.results.drop k⟩
      bonds[k] = ⟨f.list ++ bonds.take k, -eio, (f.results.drop k).tail⟩ := by
    have herr : (f.results.drop k).headD 0 ≠ 0 := by
      rwa [List.headD_eq_head?_getD, List.head?_drop, ← List.getD_eq_getElem?_getD]
    have hpos : ¬ f.bondCnt + k < 0 := by omega
    simp only [setupAcceptListCb, if_neg hpos, if_pos herr]
  have hneg : -eio < 0 := by decide
  rw [← List.take_append_drop k bonds, List.foldl_append, htake, List.drop_eq_getElem_cons hk,
    List.foldl_cons, hstep, foldl_setupAcceptListCb_of_neg hneg]
  simp

end Fill

section Advertise
variable {r : BtResults} {l : Link}

theorem setupAcceptList_of_failsAt (hclear : r.clear = 0) {k : ℕ} (hk : k < l.bonds.length)
    (hfails : r.FailsAt k) :
    setupAcceptList r l = ({ l with acceptList := l.bonds.take k }, -eio) := by
  have h := @foldl_setupAcceptListCb_fails ⟨[], 0, r.add⟩ l.bonds le_rfl k hk hfails.before
    hfails.fails
  simp [setupAcceptList, hclear, h]

/-- Either no call fails, or there is a first that does. -/
theorem added_or_failsAt (r : BtResults) (n : ℕ) :
    (∀ i < n, r.added i = 0) ∨ ∃ k < n, r.FailsAt k := by
  induction n with
  | zero => simp
  | succ n ih =>
      rcases ih with hadd | ⟨k, hk, hfails⟩
      · by_cases hn : r.added n = 0
        · left
          intro i hi
          rcases Nat.lt_succ_iff_lt_or_eq.mp hi with hlt | rfl
          · exact hadd i hlt
          · exact hn
        · exact .inr ⟨n, n.lt_succ_self, hadd, hn⟩
      · exact .inr ⟨k, by omega, hfails⟩

/-- advertise_DCLK advertises to the bonded devices, to all of them and to no others, or
it does not attempt to advertise. -/
structure AdvertisesBonds (r : BtResults) (l : Link) : Prop where
  attempts : l.advStartCalls r advertiseDCLK ≠ [] ↔
    l.bonds ≠ [] ∧ r.clear = 0 ∧ ∀ i < l.bonds.length, r.added i = 0
  listed : l.advStartCalls r advertiseDCLK ≠ [] →
    (l.execAll r advertiseDCLK).acceptList = l.bonds ∧ (setupAcceptList r l).2 = l.bonds.length
  stops : r.clear = 0 → ∀ k < l.bonds.length, r.FailsAt k →
    (l.execAll r advertiseDCLK).acceptList = l.bonds.take k ∧ (setupAcceptList r l).2 < 0
  filtered : ∀ mode ∈ l.advStartCalls r advertiseDCLK, mode = .acceptList
  closed : (l.execAll r advertiseDCLK).adv ≠ some .noAcceptList

/-- A positive number is returned for the bonds listed, if a failed clear returns none. -/
theorem setupAcceptList_pos_iff (hclear : r.clear ≤ 0) : 0 < (setupAcceptList r l).2 ↔
    l.bonds ≠ [] ∧ r.clear = 0 ∧ ∀ i < l.bonds.length, r.added i = 0 := by
  by_cases h0 : r.clear = 0
  · rcases added_or_failsAt r l.bonds.length with hadd | ⟨k, hk, hfails⟩
    · rw [setupAcceptList_of_added h0 hadd]
      show 0 < (l.bonds.length : ℤ) ↔ _
      rw [Int.natCast_pos, List.length_pos_iff]
      exact ⟨fun hbonds => ⟨hbonds, h0, hadd⟩, fun h => h.1⟩
    · rw [setupAcceptList_of_failsAt h0 hk hfails]
      show 0 < -eio ↔ _
      constructor
      · intro hpos
        exact absurd hpos (by decide)
      · intro h
        exact absurd (h.2.2 k hk) hfails.fails
  · have hneg : ¬ 0 < (setupAcceptList r l).2 := by
      rw [setupAcceptList, if_pos h0]
      show ¬ 0 < r.clear
      omega
    exact ⟨fun hpos => absurd hpos hneg, fun h => absurd h.2.1 h0⟩

theorem advStartCalls_ne_nil :
    l.advStartCalls r advertiseDCLK ≠ [] ↔ 0 < (setupAcceptList r l).2 := by
  rw [Link.advStartCalls_advertiseDCLK]
  split_ifs with hpos <;> simp [hpos]

theorem eq_acceptList_of_mem {mode : AdvMode} (h : mode ∈ l.advStartCalls r advertiseDCLK) :
    mode = .acceptList := by
  rw [Link.advStartCalls_advertiseDCLK] at h
  split_ifs at h
  · exact List.mem_singleton.mp h
  · cases h

/-- The advertiser has been stopped, so a call would be needed for open advertising. -/
theorem execAll_advertiseDCLK_closed (r : BtResults) (l : Link) :
    (l.execAll r advertiseDCLK).adv ≠ some .noAcceptList := by
  intro hopen
  rcases @Link.execAll_adv r [.setupAcceptList, .advStartIfAllowed] (l.exec r .advStop) _ hopen
    with hadv | hmem
  · cases hadv
  · cases eq_acceptList_of_mem (r := r) (l := l) hmem

/-- For every accept list and all bonds and results, advertise_DCLK advertises to the
bonds or not at all exactly if a failure to clear the accept list is not a positive
number. -/
theorem advertisesBonds_iff (r : BtResults) (l : Link) :
    AdvertisesBonds r l ↔ r.clear ≤ 0 := by
  constructor
  · intro h
    by_contra hpos
    have hcount : 0 < (setupAcceptList r l).2 := by
      rw [setupAcceptList, if_pos (by omega)]
      show 0 < r.clear
      omega
    have hclear := (h.attempts.mp (advStartCalls_ne_nil.mpr hcount)).2.1
    omega
  · intro hclear
    refine ⟨?_, fun hcalls => ?_, fun h0 k hk hfails => ?_, fun mode => eq_acceptList_of_mem,
      execAll_advertiseDCLK_closed r l⟩
    · rw [advStartCalls_ne_nil]
      exact setupAcceptList_pos_iff hclear
    · obtain ⟨-, h0, hadd⟩ := (setupAcceptList_pos_iff hclear).mp (advStartCalls_ne_nil.mp hcalls)
      rw [Link.execAll_advertiseDCLK_acceptList, setupAcceptList_of_added h0 hadd]
      exact ⟨rfl, rfl⟩
    · rw [Link.execAll_advertiseDCLK_acceptList, setupAcceptList_of_failsAt h0 hk hfails]
      have hneg : -eio < 0 := by decide
      exact ⟨rfl, hneg⟩

/-- Taken for a count, the status 0x0C starts advertising with an old accept list. -/
theorem not_advertisesBonds : ¬ ∀ (r : BtResults) (l : Link), AdvertisesBonds r l := by
  intro h
  have hattempts := (h ⟨0, 0x0C, [], 0⟩ (.boot [7] [3])).attempts
  exact absurd (hattempts.mp (by decide)).2.1 (by decide)

end Advertise
end DodgeClock
