/-
Tests on values with three truth values. A test with a null is unknown, and unknown truth values
combine as in Kleene's logic: a conjunction is false if one side is, a disjunction true if one side
is, whatever the other side would be. A value is among others if it is equal to one of them, which
is unknown if it is not and there is a null.
-/
import TableQuery.Scalar
import TableQuery.Proofs.Except
import TableQuery.Proofs.Value.Order

namespace TableQuery

/-! ## Kleene's logic -/

namespace Kleene

def and (a b : Option Bool) : Option Bool :=
  if a = some false ∨ b = some false then some false
  else if a = some true ∧ b = some true then some true
  else none

def or (a b : Option Bool) : Option Bool :=
  if a = some true ∨ b = some true then some true
  else if a = some false ∧ b = some false then some false
  else none

def not (a : Option Bool) : Option Bool := a.map (!·)

def notIf (negated : Bool) (a : Option Bool) : Option Bool := if negated then not a else a

theorem foldl_or : ∀ (bs : List (Option Bool)) (b : Option Bool), bs.foldl or b =
    if some true ∈ b :: bs then some true else if none ∈ b :: bs then none else some false
  | [], b => by rcases b with _ | _ | _ <;> rfl
  | c :: bs, b => by
    rw [List.foldl_cons, foldl_or bs]
    rcases b with _ | _ | _ <;> rcases c with _ | _ | _ <;> simp [or]

end Kleene

namespace Value

@[simp] theorem truth_ofTruth (b : Option Bool) : (ofTruth b).truth = .ok b := by
  cases b <;> rfl

theorem and_eq (a b : Value) : a.and b = do return ofTruth (Kleene.and (← a.truth) (← b.truth)) := by
  unfold Value.and
  rcases a.truth with _ | _ | _ | _ <;> rcases b.truth with _ | _ | _ | _ <;> rfl

theorem or_eq (a b : Value) : a.or b = do return ofTruth (Kleene.or (← a.truth) (← b.truth)) := by
  unfold Value.or
  rcases a.truth with _ | _ | _ | _ <;> rcases b.truth with _ | _ | _ | _ <;> rfl

@[simp] theorem and_ofTruth (a b : Option Bool) : (ofTruth a).and (ofTruth b) = .ok (ofTruth (Kleene.and a b)) := by
  rw [and_eq, truth_ofTruth, truth_ofTruth]
  rfl

@[simp] theorem or_ofTruth (a b : Option Bool) : (ofTruth a).or (ofTruth b) = .ok (ofTruth (Kleene.or a b)) := by
  rw [or_eq, truth_ofTruth, truth_ofTruth]
  rfl

/-! ## Comparison -/

/-- Whether a relation holds between two values: unknown with a null, and no answer for values of
different classes. -/
def relate? (r : Relation) (a b : Value) : Option (Option Bool) :=
  if a.isNull || b.isNull then some none else (a.compare b).toOption.map fun o => some (r.holds o)

theorem toOption_applyRelation (r : Relation) (a b : Value) :
    (Scalar.applyRelation r a b).toOption = (relate? r a b).map ofTruth := by
  unfold Scalar.applyRelation relate?
  split
  · rfl
  · cases a.compare b <;> rfl

theorem relate?_eq_none {r : Relation} {a b : Value} {o : Option Bool} (h : relate? r a b = some o) :
    o = none ↔ a.isNull = true ∨ b.isNull = true := by
  unfold relate? at h
  split at h
  · rename_i hn
    cases h
    simpa using hn
  · rename_i hn
    obtain ⟨c, -, rfl⟩ := Option.map_eq_some_iff.1 h
    simpa using hn

/-- Values that a test can compare: one of them is null, or both are truth values, numbers or texts. -/
def comparable (a b : Value) : Bool := a.isNull || b.isNull || Order.sameClass a b

theorem relate?_eq_none_iff {r : Relation} {a b : Value} : relate? r a b = none ↔ a.comparable b = false := by
  have hcompare := @exists_compare_iff a b
  unfold relate? comparable
  cases a <;> cases b <;> simp_all [isNull, Order.sameClass, compare, toDouble?, Except.toOption]

/-- Whether a value is among others: true if one of them is equal to it, else unknown if the value or
one of the others is null, else false. Nothing is among no values. -/
def isAmong (x : Value) (vs : List Value) : Option Bool :=
  if ∃ v ∈ vs, relate? .eq x v = some (some true) then some true
  else if vs ≠ [] ∧ (x.isNull ∨ ∃ v ∈ vs, v.isNull) then none
  else some false

/-- There is no answer if the value cannot be compared with one of the others, even if it is equal to
another one. -/
def isAmong? (x : Value) (vs : List Value) : Option (Option Bool) :=
  if vs.all x.comparable then some (x.isAmong vs) else none

theorem isAmong?_eq_none_iff {x : Value} {vs : List Value} :
    isAmong? x vs = none ↔ ∃ v ∈ vs, x.comparable v = false := by
  simp [isAmong?]

/-- The answers for all values together, where there is one for each. -/
theorem foldl_or_of_relate? {x v : Value} {vs : List Value} {o : Option Bool} {os : List (Option Bool)}
    (h : List.Forall₂ (fun w o => relate? .eq x w = some o) (v :: vs) (o :: os)) :
    os.foldl Kleene.or o = x.isAmong (v :: vs) := by
  have htrue : some true ∈ o :: os ↔ ∃ w ∈ v :: vs, relate? .eq x w = some (some true) := by
    constructor
    · intro hm
      obtain ⟨w, hw, hwo⟩ := exists_left_of_forall₂ h _ hm
      exact ⟨w, hw, hwo⟩
    · rintro ⟨w, hw, hwo⟩
      obtain ⟨p, hp, hwp⟩ := exists_right_of_forall₂ h w hw
      rw [hwo] at hwp
      cases hwp
      exact hp
  have hnull : none ∈ o :: os ↔ x.isNull = true ∨ ∃ w ∈ v :: vs, w.isNull = true := by
    constructor
    · intro hm
      obtain ⟨w, hw, hwo⟩ := exists_left_of_forall₂ h _ hm
      rcases (relate?_eq_none hwo).1 rfl with hx | hn
      · exact .inl hx
      · exact .inr ⟨w, hw, hn⟩
    · have hmem : ∀ w ∈ v :: vs, x.isNull = true ∨ w.isNull = true → none ∈ o :: os := by
        intro w hw hn
        obtain ⟨p, hp, hwp⟩ := exists_right_of_forall₂ h w hw
        rwa [← (relate?_eq_none hwp).2 hn]
      rintro (hx | ⟨w, hw, hn⟩)
      · exact hmem v (List.mem_cons_self ..) (.inl hx)
      · exact hmem w hw (.inr hn)
  rw [Kleene.foldl_or, isAmong]
  simp only [htrue, hnull, ne_eq, reduceCtorEq, not_false_eq_true, true_and]

/-- A disjunction of equations says whether the value is among the right sides. -/
theorem isAmong?_cons (x v : Value) (vs : List Value) : isAmong? x (v :: vs) =
    (relate? .eq x v).bind fun o => (vs.mapM (relate? .eq x)).map fun os => os.foldl Kleene.or o := by
  rcases ho : relate? .eq x v with _ | o
  · exact isAmong?_eq_none_iff.2 ⟨v, List.mem_cons_self, relate?_eq_none_iff.1 ho⟩
  rcases hos : vs.mapM (relate? .eq x) with _ | os
  · obtain ⟨w, hw, hwo⟩ := exists_of_mapM_none hos
    exact isAmong?_eq_none_iff.2 ⟨w, List.mem_cons_of_mem _ hw, relate?_eq_none_iff.1 hwo⟩
  · have hrel : List.Forall₂ (fun w p => relate? .eq x w = some p) (v :: vs) (o :: os) :=
      .cons ho (mapM_eq_some.1 hos)
    have hall : (v :: vs).all x.comparable = true := by
      rw [List.all_eq_true]
      intro w hw
      obtain ⟨p, -, hp⟩ := exists_right_of_forall₂ hrel w hw
      by_contra hc
      simp [relate?_eq_none_iff.2 (Bool.eq_false_iff.2 hc)] at hp
    rw [isAmong?, if_pos hall, ← foldl_or_of_relate? hrel]
    rfl

end Value

end TableQuery
