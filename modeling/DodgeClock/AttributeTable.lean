import Mathlib.Tactic

/-!
# Tables of attributes

What a client learns of a service: a list of attributes, in the order of their
handles. Some declare a characteristic; the attributes up to the next declaration
belong to it, its value attribute and its descriptors. A characteristic is looked up by
the type of its value, and its attributes by their own type.
-/
namespace AttributeTable

/-- `chrc` is the type of the value, if the attribute declares a characteristic. -/
structure Attr (υ : Type*) where
  handle : ℕ
  uuid : υ
  chrc : Option υ
  deriving DecidableEq, Repr

variable {υ : Type*} [DecidableEq υ]

/-- The attributes that follow the first declaration of a characteristic `c`. -/
def charByUuid (c : υ) : List (Attr υ) → Option (List (Attr υ))
  | [] => none
  | a :: as => if a.chrc = some c then some as else charByUuid c as

/-- The first attribute of type `u` before the next declaration. -/
def descByUuid (u : υ) : List (Attr υ) → Option (Attr υ)
  | [] => none
  | a :: as => if a.chrc ≠ none then none else if a.uuid = u then some a else descByUuid u as

/-- `as` follows a declaration of a characteristic `c` of the table. -/
def Declares (table : List (Attr υ)) (c : υ) (as : List (Attr υ)) : Prop :=
  ∃ before decl, table = before ++ decl :: as ∧ decl.chrc = some c

/-- `a` has type `u` and stands in `as` before the next declaration. -/
def Holds (as : List (Attr υ)) (u : υ) (a : Attr υ) : Prop :=
  a.uuid = u ∧ ∃ between after, as = between ++ a :: after ∧ ∀ b ∈ between ++ [a], b.chrc = none

/-- The first characteristic `c` of the table has an attribute of type `u`. -/
def Has (table : List (Attr υ)) (c u : υ) : Prop :=
  (charByUuid c table).any (fun as => (descByUuid u as).isSome) = true

instance (table : List (Attr υ)) (c u : υ) : Decidable (Has table c u) :=
  inferInstanceAs (Decidable (_ = _))

theorem declares_of_charByUuid {c : υ} {table as : List (Attr υ)}
    (h : charByUuid c table = some as) : Declares table c as := by
  induction table with
  | nil => simp [charByUuid] at h
  | cons a table ih =>
      by_cases ha : a.chrc = some c
      · rw [charByUuid, if_pos ha] at h
        obtain rfl := Option.some.inj h
        exact ⟨[], a, rfl, ha⟩
      · rw [charByUuid, if_neg ha] at h
        obtain ⟨before, decl, rfl, hdecl⟩ := ih h
        exact ⟨a :: before, decl, rfl, hdecl⟩

theorem holds_of_descByUuid {u : υ} {as : List (Attr υ)} {a : Attr υ}
    (h : descByUuid u as = some a) : Holds as u a := by
  induction as with
  | nil => simp [descByUuid] at h
  | cons b as ih =>
      by_cases hb : b.chrc = none
      · by_cases hu : b.uuid = u
        · rw [descByUuid, if_neg (not_not.mpr hb), if_pos hu] at h
          obtain rfl := Option.some.inj h
          exact ⟨hu, [], as, rfl, by simpa using hb⟩
        · rw [descByUuid, if_neg (not_not.mpr hb), if_neg hu] at h
          obtain ⟨hau, between, after, rfl, hbetween⟩ := ih h
          refine ⟨hau, b :: between, after, rfl, ?_⟩
          rw [List.cons_append, List.forall_mem_cons]
          exact ⟨hb, hbetween⟩
      · rw [descByUuid, if_pos hb] at h
        cases h

end AttributeTable
