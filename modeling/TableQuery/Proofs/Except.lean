/-
Computations that can fail: what a successful sequence consists of, and lists of computations that
are mapped to lists of computations. A computation that succeeds on a list relates it to the list of
its results, element by element.
-/
import TableQuery.Error
import Mathlib.Data.List.Forall2

namespace TableQuery

variable {ε α β γ δ : Type}

/-! ## Sequences -/

@[simp] theorem ok_bind (a : α) (f : α → Except ε β) : (Except.ok a >>= f) = f a := rfl

@[simp] theorem error_bind (e : ε) (f : α → Except ε β) : ((Except.error e : Except ε α) >>= f) = .error e :=
  rfl

@[simp] theorem pure_eq_ok (a : α) : (pure a : Except ε α) = .ok a := rfl

@[simp] theorem map_ok (f : α → β) (a : α) : (Except.ok a : Except ε α).map f = .ok (f a) := rfl

theorem bind_ok {x : Except ε α} {f : α → Except ε β} {b : β} (h : (x >>= f) = .ok b) :
    ∃ a, x = .ok a ∧ f a = .ok b := by
  cases x with
  | error e => cases h
  | ok a => exact ⟨a, rfl, h⟩

theorem bind_error {x : Except ε α} {f : α → Except ε β} {e : ε} (h : (x >>= f) = .error e) :
    x = .error e ∨ ∃ a, x = .ok a ∧ f a = .error e := by
  cases x with
  | error e' => cases h; exact .inl rfl
  | ok a => exact .inr ⟨a, rfl, h⟩

theorem map_eq_ok {x : Except ε α} {f : α → β} {b : β} (h : x.map f = .ok b) : ∃ a, x = .ok a ∧ f a = b := by
  cases x with
  | error e => cases h
  | ok a => cases h; exact ⟨a, rfl, rfl⟩

theorem map_eq_error {x : Except ε α} {f : α → β} {e : ε} (h : x.map f = .error e) : x = .error e := by
  cases x with
  | error e => cases h; rfl
  | ok a => cases h

theorem mapError_eq_ok {ε' : Type} {x : Except ε α} {f : ε → ε'} {a : α} (h : x.mapError f = .ok a) : x = .ok a := by
  cases x with
  | error e => cases h
  | ok b => cases h; rfl

theorem bind_congr_ok {x : Except ε α} {f g : α → Except ε β} (h : ∀ a, x = .ok a → f a = g a) :
    (x >>= f) = (x >>= g) := by
  cases x with
  | error e => rfl
  | ok a => exact h a rfl

theorem map_bind_eq (x : Except ε α) (f : α → β) (g : β → Except ε γ) : (x.map f >>= g) = (x >>= fun a => g (f a)) := by
  cases x <;> rfl

theorem bind_map_eq (x : Except ε α) (f : α → Except ε β) (g : β → γ) :
    (x >>= f).map g = (x >>= fun a => (f a).map g) := by
  cases x <;> rfl

/-- A property of the result of a computation, if it has one. -/
instance decidableExistsOk (x : Except ε α) (p : α → Prop) [DecidablePred p] : Decidable (∃ a, x = .ok a ∧ p a) :=
  match x with
  | .ok a => decidable_of_iff (p a) ⟨fun h => ⟨a, rfl, h⟩, fun ⟨_, he, h⟩ => Except.ok.inj he ▸ h⟩
  | .error _ => isFalse (by rintro ⟨_, he, -⟩; cases he)

/-! ## Related lists -/

theorem isEmpty_of_forall₂ {R : α → β → Prop} {xs : List α} {ys : List β} (h : List.Forall₂ R xs ys) :
    xs.isEmpty = ys.isEmpty := by
  cases h <;> rfl

theorem exists_left_of_forall₂ {R : α → β → Prop} {xs : List α} {ys : List β} (h : List.Forall₂ R xs ys) :
    ∀ y ∈ ys, ∃ x ∈ xs, R x y := by
  induction h with
  | nil => exact fun _ hy => absurd hy List.not_mem_nil
  | cons hxy _ ih =>
    intro y hy
    rcases List.mem_cons.1 hy with rfl | hy
    · exact ⟨_, List.mem_cons_self .., hxy⟩
    · obtain ⟨x, hx, hR⟩ := ih y hy
      exact ⟨x, List.mem_cons_of_mem _ hx, hR⟩

theorem exists_right_of_forall₂ {R : α → β → Prop} {xs : List α} {ys : List β} (h : List.Forall₂ R xs ys) :
    ∀ x ∈ xs, ∃ y ∈ ys, R x y :=
  exists_left_of_forall₂ (R := flip R) h.flip

/-! ## Lists -/

theorem mapM_congr_ok {f g : α → Except ε β} : ∀ {xs : List α}, (∀ x ∈ xs, f x = g x) → xs.mapM f = xs.mapM g
  | [], _ => rfl
  | x :: xs, h => by
    rw [List.mapM_cons, List.mapM_cons, h x (List.mem_cons_self ..),
      mapM_congr_ok fun y hy => h y (List.mem_cons_of_mem _ hy)]

theorem mapM_eq_ok {f : α → Except ε β} {g : α → β} {xs : List α} (h : ∀ x ∈ xs, f x = .ok (g x)) :
    xs.mapM f = .ok (xs.map g) :=
  (mapM_congr_ok h).trans List.mapM_pure

theorem mapM_eq_map {f : α → Except ε γ} {g : α → Except ε β} {q : β → γ} :
    ∀ {xs : List α}, (∀ x ∈ xs, f x = (g x).map q) → xs.mapM f = (xs.mapM g).map (List.map q)
  | [], _ => rfl
  | x :: xs, h => by
    rw [List.mapM_cons, List.mapM_cons, h x (List.mem_cons_self ..),
      mapM_eq_map fun y hy => h y (List.mem_cons_of_mem _ hy)]
    rcases g x with e | b
    · rfl
    · rcases xs.mapM g with e | bs <;> rfl

/-- Computing on the images of a list is the image of computing on the list. -/
theorem mapM_map_eq {f : γ → Except ε δ} {g : α → Except ε β} {p : α → γ} {q : β → δ} {xs : List α}
    (h : ∀ x ∈ xs, f (p x) = (g x).map q) : (xs.map p).mapM f = (xs.mapM g).map (List.map q) := by
  rw [List.mapM_map]; exact mapM_eq_map h

theorem mapM_ok_forall₂ {f : α → Except ε β} : ∀ {xs : List α} {ys : List β}, xs.mapM f = .ok ys →
    List.Forall₂ (fun x y => f x = .ok y) xs ys
  | [], ys, h => by cases h; exact .nil
  | x :: xs, ys, h => by
    rw [List.mapM_cons] at h
    obtain ⟨y, hy, h⟩ := bind_ok h
    obtain ⟨ys', hys, h⟩ := bind_ok h
    cases h
    exact .cons hy (mapM_ok_forall₂ hys)

/-- What is known of each result is known of the list of results. -/
theorem map_eq_of_mapM_ok {f : α → Except ε β} {p : β → γ} {q : α → γ} : ∀ {xs : List α} {ys : List β},
    xs.mapM f = .ok ys → (∀ x ∈ xs, ∀ y, f x = .ok y → p y = q x) → ys.map p = xs.map q
  | [], ys, h, _ => by cases h; rfl
  | x :: xs, ys, h, hpq => by
    rw [List.mapM_cons] at h
    obtain ⟨y, hy, h⟩ := bind_ok h
    obtain ⟨ys', hys, h⟩ := bind_ok h
    cases h
    rw [List.map_cons, List.map_cons, hpq x (List.mem_cons_self ..) y hy,
      map_eq_of_mapM_ok hys fun x' hx => hpq x' (List.mem_cons_of_mem _ hx)]

theorem mem_of_mapM_ok {f : α → Except ε β} {xs : List α} {ys : List β} (h : xs.mapM f = .ok ys) :
    ∀ y ∈ ys, ∃ x ∈ xs, f x = .ok y :=
  exists_left_of_forall₂ (mapM_ok_forall₂ h)

theorem exists_of_mapM_ok {f : α → Except ε β} {xs : List α} {ys : List β} (h : xs.mapM f = .ok ys) :
    ∀ x ∈ xs, ∃ y ∈ ys, f x = .ok y :=
  exists_right_of_forall₂ (mapM_ok_forall₂ h)

/-- Computing on a list succeeds if it does on each element. -/
theorem exists_mapM_ok {f : α → Except ε β} : ∀ {xs : List α}, (∀ x ∈ xs, ∃ y, f x = .ok y) → ∃ ys, xs.mapM f = .ok ys
  | [], _ => ⟨[], rfl⟩
  | x :: xs, h => by
    obtain ⟨y, hy⟩ := h x (List.mem_cons_self ..)
    obtain ⟨ys, hys⟩ := exists_mapM_ok fun x' hx => h x' (List.mem_cons_of_mem _ hx)
    exact ⟨y :: ys, by rw [List.mapM_cons, hy, ok_bind, hys]; rfl⟩

theorem exists_of_mapM_error {f : α → Except ε β} {e : ε} : ∀ {xs : List α}, xs.mapM f = .error e →
    ∃ x ∈ xs, f x = .error e
  | x :: xs, h => by
    rw [List.mapM_cons] at h
    rcases bind_error h with hx | ⟨y, -, h⟩
    · exact ⟨x, List.mem_cons_self, hx⟩
    · rcases bind_error h with hxs | ⟨ys, -, h⟩
      · obtain ⟨x', hx', hf⟩ := exists_of_mapM_error hxs
        exact ⟨x', List.mem_cons_of_mem _ hx', hf⟩
      · cases h

theorem optionMapM_ok {f : α → Except ε β} {x : Option α} {y : Option β} (h : x.mapM f = .ok y) :
    (x = none ∧ y = none) ∨ ∃ a b, x = some a ∧ y = some b ∧ f a = .ok b := by
  cases x with
  | none => cases h; exact .inl ⟨rfl, rfl⟩
  | some a =>
    obtain ⟨b, hb, h⟩ := bind_ok h
    cases h
    exact .inr ⟨a, b, rfl, rfl, hb⟩

/-! ## Values that may be missing -/

theorem bind_some {x : Option α} {f : α → Option β} {b : β} (h : (x >>= f) = some b) :
    ∃ a, x = some a ∧ f a = some b :=
  Option.bind_eq_some_iff.1 h

theorem mapM_eq_some {f : α → Option β} : ∀ {xs : List α} {ys : List β},
    xs.mapM f = some ys ↔ List.Forall₂ (fun x y => f x = some y) xs ys
  | [], ys => by
    rw [List.mapM_nil, List.forall₂_nil_left_iff]
    exact Option.some_inj.trans eq_comm
  | x :: xs, ys => by
    rw [List.mapM_cons, List.forall₂_cons_left_iff]
    simp only [Option.bind_eq_bind, Option.bind_eq_some_iff, mapM_eq_some]
    constructor
    · rintro ⟨y, hy, zs, hzs, h⟩
      cases h
      exact ⟨y, zs, hy, hzs, rfl⟩
    · rintro ⟨y, zs, hy, hzs, rfl⟩
      exact ⟨y, hy, zs, hzs, rfl⟩

theorem mapM_eq_some_map {f : α → Option β} {g : α → β} {xs : List α} (h : ∀ x ∈ xs, f x = some (g x)) :
    xs.mapM f = some (xs.map g) := by
  rw [mapM_eq_some, List.forall₂_map_right_iff]
  exact List.forall₂_same.2 h

/-- Computing on a list succeeds if it does on each element, and the results have what each of them has. -/
theorem exists_mapM_some {f : α → Option β} {R : α → β → Prop} : ∀ {xs : List α},
    (∀ x ∈ xs, ∃ y, f x = some y ∧ R x y) → ∃ ys, xs.mapM f = some ys ∧ List.Forall₂ R xs ys
  | [], _ => ⟨[], rfl, .nil⟩
  | x :: xs, h => by
    obtain ⟨y, hy, hxy⟩ := h x List.mem_cons_self
    obtain ⟨ys, hys, hR⟩ := exists_mapM_some fun x' hx => h x' (List.mem_cons_of_mem _ hx)
    refine ⟨y :: ys, ?_, .cons hxy hR⟩
    rw [List.mapM_cons, hy, hys]
    rfl

theorem mapM_eq_none {f : α → Option β} : ∀ {xs : List α} {x : α}, x ∈ xs → f x = none → xs.mapM f = none
  | y :: ys, x, hx, hf => by
    rw [List.mapM_cons]
    rcases List.mem_cons.1 hx with rfl | hx
    · rw [hf]
      rfl
    · rw [mapM_eq_none hx hf]
      cases f y <;> rfl

theorem exists_of_mapM_none {f : α → Option β} : ∀ {xs : List α}, xs.mapM f = none → ∃ x ∈ xs, f x = none
  | x :: xs, h => by
    rw [List.mapM_cons] at h
    rcases hx : f x with _ | y
    · exact ⟨x, List.mem_cons_self, hx⟩
    · rcases hxs : xs.mapM f with _ | ys
      · obtain ⟨x', hx', hf⟩ := exists_of_mapM_none hxs
        exact ⟨x', List.mem_cons_of_mem _ hx', hf⟩
      · rw [hx, hxs] at h
        cases h

theorem mapM_const {xs : List α} (h : xs ≠ []) (o : Option β) :
    xs.mapM (fun _ => o) = o.map (List.replicate xs.length) := by
  cases o with
  | none =>
    obtain ⟨x, hx⟩ := List.exists_mem_of_ne_nil xs h
    exact mapM_eq_none hx rfl
  | some b =>
    rw [mapM_eq_some_map (g := fun _ => b) fun _ _ => rfl, List.map_const']
    rfl

/-- Two computations for each element may be made one after the other or one list after the other. -/
theorem mapM_bind_mapM (f : α → Option β) (g : β → Option γ) : ∀ xs : List α,
    ((xs.mapM f).bind fun ys => ys.mapM g) = xs.mapM fun x => (f x).bind g
  | [] => rfl
  | x :: xs => by
    rw [List.mapM_cons, List.mapM_cons, ← mapM_bind_mapM f g xs]
    cases f x with
    | none => rfl
    | some y =>
      cases xs.mapM f with
      | none => cases hg : g y <;> simp [hg]
      | some ys => simp [List.mapM_cons]

/-! ## Results up to the error -/

theorem toOption_bind_congr {x y : Except ε α} {f g : α → Except ε β} (h : x.toOption = y.toOption)
    (hf : ∀ a, x = .ok a → (f a).toOption = (g a).toOption) : (x >>= f).toOption = (y >>= g).toOption := by
  cases x with
  | error e =>
    cases y with
    | error e' => rfl
    | ok b => cases h
  | ok a =>
    cases y with
    | error e' => cases h
    | ok b =>
      cases h
      exact hf a rfl

theorem toOption_map_congr {x y : Except ε α} (f : α → β) (h : x.toOption = y.toOption) :
    (x.map f).toOption = (y.map f).toOption :=
  toOption_bind_congr (f := fun a => .ok (f a)) h fun _ _ => rfl

theorem toOption_mapM_congr {f : α → Except ε β} {g : γ → Except ε β} : ∀ {xs : List α} {ys : List γ},
    List.Forall₂ (fun x y => (f x).toOption = (g y).toOption) xs ys → (xs.mapM f).toOption = (ys.mapM g).toOption
  | [], _, h => by cases h; rfl
  | x :: xs, _, h => by
    obtain _ | ⟨hx, hxs⟩ := h
    rw [List.mapM_cons, List.mapM_cons]
    exact toOption_bind_congr hx fun _ _ =>
      toOption_bind_congr (toOption_mapM_congr hxs) fun _ _ => rfl

theorem toOption_bind (x : Except ε α) (f : α → Except ε β) :
    (x >>= f).toOption = x.toOption.bind fun a => (f a).toOption := by
  cases x <;> rfl

theorem toOption_mapM (f : α → Except ε β) : ∀ xs : List α, (xs.mapM f).toOption = xs.mapM fun x => (f x).toOption
  | [] => rfl
  | x :: xs => by
    rw [List.mapM_cons, List.mapM_cons, toOption_bind, ← toOption_mapM f xs]
    cases f x with
    | error e => rfl
    | ok b => cases xs.mapM f <;> rfl

theorem eq_ok_of_toOption {x y : Except ε α} {a : α} (h : x.toOption = y.toOption) (hx : x = .ok a) : y = .ok a := by
  subst hx
  cases y with
  | error e => cases h
  | ok b => cases h; rfl

end TableQuery
