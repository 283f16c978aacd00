/-
What patterns match. In the rules of the language a `%` stands for any run of characters; the search stands a
`%` for one `%` wherever the text goes on with one, and finds a match exactly under that rule. So it finds no
match that the rules do not have, and it finds all of them on the texts without a `%` and on no others.
-/
import TableQuery.Text.Like
import Mathlib.Data.List.Forall2

namespace TableQuery.Text

/-! ## Rules -/

/-- The texts that a pattern matches, where `runs u t` says that a `%` may stand for the run `u` in front of
the text `t`. -/
inductive MatchesBy (runs : List Char → List Char → Prop) : List Char → List Char → Prop
  | nil : MatchesBy runs [] []
  | run {p u t : List Char} : runs u t → MatchesBy runs p t → MatchesBy runs ('%' :: p) (u ++ t)
  | one {p t : List Char} (c : Char) : MatchesBy runs p t → MatchesBy runs ('_' :: p) (c :: t)
  | char {p t : List Char} {c : Char} : c ≠ '%' → c ≠ '_' → MatchesBy runs p t → MatchesBy runs (c :: p) (c :: t)

/-- The rules of the language: any run of characters, also the empty one. -/
def Matches : List Char → List Char → Prop := MatchesBy fun _ _ => True

/-- In front of a `%` of the text only this one character is a run. -/
def IsRun (u t : List Char) : Prop := (u ++ t).head? = some '%' → u = ['%']

/-- The rules of the search. -/
def MatchesFirst : List Char → List Char → Prop := MatchesBy IsRun

/-- What the search compares: a pattern character with a character of the text. -/
def Fits (p c : Char) : Prop := p = '_' ∨ p = c

/-! ## Inversion of the rules -/

section

variable {runs : List Char → List Char → Prop} {p c : Char} {ps t : List Char}

theorem matchesBy_nil_iff : MatchesBy runs [] t ↔ t = [] :=
  ⟨fun h => by cases h; rfl, fun h => by rw [h]; exact .nil⟩

theorem matchesBy_run_iff :
    MatchesBy runs ('%' :: ps) t ↔ ∃ u v, t = u ++ v ∧ runs u v ∧ MatchesBy runs ps v := by
  constructor
  · intro h
    cases h with
    | run hr h => exact ⟨_, _, rfl, hr, h⟩
    | char hc => exact absurd rfl hc
  · rintro ⟨u, v, rfl, hr, h⟩
    exact .run hr h

theorem matchesBy_cons_iff (hp : p ≠ '%') :
    MatchesBy runs (p :: ps) t ↔ ∃ c v, t = c :: v ∧ Fits p c ∧ MatchesBy runs ps v := by
  constructor
  · intro h
    cases h with
    | run => exact absurd rfl hp
    | one c h => exact ⟨c, _, rfl, .inl rfl, h⟩
    | char _ _ h => exact ⟨p, _, rfl, .inr rfl, h⟩
  · rintro ⟨c, v, rfl, hf, h⟩
    by_cases hp' : p = '_'
    · subst hp'
      exact .one c h
    · obtain rfl := hf.resolve_left hp'
      exact .char hp hp' h

/-- The first character of a pattern takes a part of the text. -/
theorem exists_suffix_of_cons (h : MatchesBy runs (p :: ps) t) : ∃ v, v <:+ t ∧ MatchesBy runs ps v := by
  by_cases hp : p = '%'
  · subst hp
    obtain ⟨u, v, rfl, -, h⟩ := matchesBy_run_iff.1 h
    exact ⟨v, List.suffix_append u v, h⟩
  · obtain ⟨c, v, rfl, -, h⟩ := (matchesBy_cons_iff hp).1 h
    exact ⟨v, List.suffix_cons c v, h⟩

theorem MatchesBy.mono {runs' : List Char → List Char → Prop} (h : MatchesBy runs ps t)
    (hr : ∀ u v, u ++ v <:+ t → runs u v → runs' u v) : MatchesBy runs' ps t := by
  induction h with
  | nil => exact .nil
  | @run p u v hu _ ih =>
    exact .run (hr u v List.suffix_rfl hu) (ih fun u' v' hs => hr u' v' (hs.trans (List.suffix_append u v)))
  | one c _ ih => exact .one c (ih fun u v hs => hr u v (hs.trans (List.suffix_cons ..)))
  | char hc hc' _ ih => exact .char hc hc' (ih fun u v hs => hr u v (hs.trans (List.suffix_cons ..)))

end

/-! ## The rules of the search -/

variable {p c : Char} {ps t : List Char}

theorem isRun_nil (h : t.head? ≠ some '%') : IsRun [] t := fun h' => absurd h' h

/-- A pattern character that is equal to the character of the text stands for it, also a `%`. -/
theorem matchesFirst_cons_of_fits (hf : Fits p c) : MatchesFirst (p :: ps) (c :: t) ↔ MatchesFirst ps t := by
  by_cases hp : p = '%'
  · subst hp
    obtain rfl : '%' = c := hf.resolve_left (by decide)
    refine matchesBy_run_iff.trans ⟨?_, fun h => ⟨['%'], t, rfl, fun _ => rfl, h⟩⟩
    rintro ⟨u, v, hu, hr, h⟩
    obtain rfl := hr (hu ▸ rfl)
    cases hu
    exact h
  · refine (matchesBy_cons_iff hp).trans ⟨?_, fun h => ⟨c, t, rfl, hf, h⟩⟩
    rintro ⟨_, _, heq, -, h⟩
    cases heq
    exact h

theorem not_matchesFirst_cons (hf : ¬Fits p c) (hp : p ≠ '%') : ¬MatchesFirst (p :: ps) (c :: t) := by
  intro h
  obtain ⟨_, _, heq, hf', -⟩ := (matchesBy_cons_iff hp).1 h
  cases heq
  exact hf hf'

/-- In front of any other character a `%` stands for any run. -/
theorem matchesFirst_run_iff (hc : c ≠ '%') :
    MatchesFirst ('%' :: ps) (c :: t) ↔ ∃ v, v <:+ c :: t ∧ MatchesFirst ps v := by
  refine ⟨exists_suffix_of_cons, ?_⟩
  rintro ⟨v, ⟨u, hu⟩, h⟩
  refine matchesBy_run_iff.2 ⟨u, v, hu.symm, fun hhead => ?_, h⟩
  rw [hu] at hhead
  exact absurd (Option.some.inj hhead) hc

theorem matchesFirst_nil_iff : ∀ {ps : List Char}, MatchesFirst ps [] ↔ ps.all (· == '%') = true
  | [] => by simp [MatchesFirst, matchesBy_nil_iff]
  | p :: ps => by
    rw [List.all_cons, Bool.and_eq_true, beq_iff_eq, ← matchesFirst_nil_iff]
    constructor
    · intro h
      by_cases hp : p = '%'
      · obtain ⟨v, hv, h⟩ := exists_suffix_of_cons h
        rw [List.suffix_nil.1 hv] at h
        exact ⟨hp, h⟩
      · obtain ⟨_, _, heq, -⟩ := (matchesBy_cons_iff hp).1 h
        cases heq
    · rintro ⟨rfl, h⟩
      exact matchesBy_run_iff.2 ⟨[], [], rfl, isRun_nil (by simp), h⟩

/-- A run that starts later than where the text was taken character by character leaves no more of the text. -/
theorem exists_suffix_of_fits {xs ys : List Char} (hxy : List.Forall₂ Fits xs ys) {v : List Char}
    (hv : v <:+ ys ++ t) (h : MatchesFirst (xs ++ ps) v) : ∃ w, w <:+ t ∧ MatchesFirst ps w := by
  induction hxy generalizing v with
  | nil => exact ⟨v, hv, h⟩
  | @cons x y xs ys hf _ ih =>
    rcases List.suffix_cons_iff.1 hv with rfl | hv
    · exact ih List.suffix_rfl ((matchesFirst_cons_of_fits hf).1 h)
    · obtain ⟨w, hw, h⟩ := exists_suffix_of_cons h
      exact ih (hw.trans hv) h

/-! ## The search -/

/-- From the run of `r` on, the pattern and the text were taken character by character up to what is left. -/
def Retry.Leads (r : Retry) (text pattern : List Char) : Prop :=
  ∃ xs ys, List.Forall₂ Fits xs ys ∧ r.pattern = xs ++ pattern ∧ r.text = ys ++ text

/-- A longer run brings a match. -/
def Retry.Succeeds (r : Retry) : Prop := ∃ v, v <:+ r.text.tail ∧ MatchesFirst r.pattern v

theorem Retry.leads_start (ps t : List Char) : (Retry.mk ps t).Leads t ps := ⟨[], [], .nil, rfl, rfl⟩

theorem Retry.Leads.cons {r : Retry} (h : r.Leads (c :: t) (p :: ps)) (hf : Fits p c) : r.Leads t ps := by
  obtain ⟨xs, ys, hxy, hp, ht⟩ := h
  refine ⟨xs ++ [p], ys ++ [c], List.rel_append hxy (.cons hf .nil), ?_, ?_⟩ <;> simpa

theorem Retry.Leads.exists_suffix {r : Retry} (h : r.Leads t ps) (hr : r.Succeeds) :
    ∃ w, w <:+ t ∧ MatchesFirst ps w := by
  obtain ⟨xs, ys, hxy, hp, ht⟩ := h
  obtain ⟨v, hv, hm⟩ := hr
  rw [hp] at hm
  exact exists_suffix_of_fits hxy (ht ▸ hv.trans (List.tail_suffix _)) hm

/-- The next longer run, or one that is longer still. -/
theorem Retry.succeeds_iff {q us : List Char} {u : Char} :
    (Retry.mk q (u :: us)).Succeeds ↔ MatchesFirst q us ∨ (Retry.mk q us).Succeeds := by
  cases us with
  | nil => simp [Retry.Succeeds]
  | cons u' us =>
    simp only [Retry.Succeeds, List.tail_cons, List.suffix_cons_iff (a := u'), or_and_right, exists_or, exists_eq_left]

/-- The next longer run is tried where the text cannot go on. -/
theorem Retry.search_iff {q us : List Char} {u : Char} (h : ¬MatchesFirst ps t) {found : Prop}
    (ih : (∀ r ∈ some (Retry.mk q us), r.Leads us q) →
      (found ↔ MatchesFirst q us ∨ ∃ r ∈ some (Retry.mk q us), r.Succeeds)) :
    found ↔ MatchesFirst ps t ∨ ∃ r ∈ some (Retry.mk q (u :: us)), r.Succeeds := by
  have ih := ih fun r hr => by cases hr; exact Retry.leads_start q us
  simpa [h, Retry.succeeds_iff] using ih

/-- Where no run can be longer, none succeeds. -/
theorem Retry.none_succeeds {retry : Option Retry} (hr : ∀ r ∈ retry, r.Leads (c :: t) ps)
    (hnone : ∀ q u us, retry ≠ some ⟨q, u :: us⟩) : ¬∃ r ∈ retry, r.Succeeds := by
  rintro ⟨⟨q, us⟩, rfl, -⟩
  obtain ⟨xs, ys, -, -, ht⟩ := hr _ rfl
  cases us with
  | nil => simp at ht
  | cons u us => exact hnone q u us rfl

/-- The search finds a match, or a longer run brings one. -/
theorem likeFrom_iff {retry : Option Retry} {text pattern : List Char}
    {bound : ∀ r ∈ retry, text.length ≤ r.text.length} (hr : ∀ r ∈ retry, r.Leads text pattern) :
    likeFrom retry text pattern bound = true ↔ MatchesFirst pattern text ∨ ∃ r ∈ retry, r.Succeeds := by
  fun_induction likeFrom retry text pattern bound with
  | case1 retry p =>
    -- at the end of the text a longer run leaves nothing either
    rw [matchesFirst_nil_iff, or_iff_left_of_imp]
    rintro ⟨r, hr', hs⟩
    obtain ⟨w, hw, h⟩ := (hr r hr').exists_suffix hs
    rw [List.suffix_nil.1 hw] at h
    exact matchesFirst_nil_iff.1 h
  | case2 retry t ts p ps bound hf _ ih =>
    have hf : Fits p t := by simpa [Fits] using hf
    rw [ih fun r hr' => (hr r hr').cons hf, matchesFirst_cons_of_fits hf]
  | case3 retry t ts ps _ _ hf ih =>
    have ht : t ≠ '%' := by
      rintro rfl
      exact hf rfl
    rw [ih fun r hr' => by cases hr'; exact Retry.leads_start ps (t :: ts), matchesFirst_run_iff ht]
    have hstart : (MatchesFirst ps (t :: ts) ∨ ∃ r ∈ some (Retry.mk ps (t :: ts)), r.Succeeds) ↔
        ∃ v, v <:+ t :: ts ∧ MatchesFirst ps v := by
      simp only [Option.mem_def, Option.some.injEq, exists_eq_left', Retry.Succeeds, List.tail_cons,
        List.suffix_cons_iff, or_and_right, exists_or, exists_eq_left]
    -- what a longer run of the last `%` leaves, this one can leave as well
    rw [hstart, or_iff_left_of_imp]
    rintro ⟨r, hr', hs⟩
    obtain ⟨w, hw, h⟩ := (hr r hr').exists_suffix hs
    obtain ⟨v, hv, h⟩ := exists_suffix_of_cons h
    exact ⟨v, hv.trans hw, h⟩
  | case4 t ts p ps hf hp q u us _ _ ih =>
    have hf : ¬Fits p t := by simpa [Fits] using hf
    exact Retry.search_iff (not_matchesFirst_cons hf hp) ih
  | case5 retry t ts p ps hf hp _ hnone _ =>
    have hf : ¬Fits p t := by simpa [Fits] using hf
    have hnone := Retry.none_succeeds hr fun q u us h => by subst h; exact hnone q u us _ rfl HEq.rfl
    exact iff_of_false (by decide) (not_or.2 ⟨not_matchesFirst_cons hf hp, hnone⟩)
  | case6 t ts q u us _ _ ih =>
    exact Retry.search_iff (fun h => by cases matchesBy_nil_iff.1 h) ih
  | case7 retry t ts _ hnone _ =>
    have hnone := Retry.none_succeeds hr fun q u us h => by subst h; exact hnone q u us _ rfl HEq.rfl
    exact iff_of_false (by decide) (not_or.2 ⟨fun h => (List.cons_ne_nil t ts) (matchesBy_nil_iff.1 h), hnone⟩)

theorem like_iff_matchesFirst (text pattern : String) :
    like text pattern = true ↔ MatchesFirst pattern.toList text.toList := by
  rw [like, likeFrom_iff fun r hr => by cases hr]
  simp

/-! ## Texts without a `%` -/

theorem matches_of_matchesFirst (h : MatchesFirst ps t) : Matches ps t := h.mono fun _ _ _ _ => trivial

theorem matchesFirst_of_matches (ht : '%' ∉ t) (h : Matches ps t) : MatchesFirst ps t :=
  h.mono fun _ _ hs _ hhead => absurd (hs.mem (List.mem_of_mem_head? hhead)) ht

/-- A pattern of `_` alone matches the texts of its length. -/
theorem matchesBy_replicate_iff {runs : List Char → List Char → Prop} : ∀ {n : Nat} {t : List Char},
    MatchesBy runs (List.replicate n '_') t ↔ t.length = n
  | 0, t => matchesBy_nil_iff.trans List.length_eq_zero_iff.symm
  | n + 1, t => by
    rw [List.replicate_succ, matchesBy_cons_iff (by decide)]
    simp only [matchesBy_replicate_iff]
    constructor
    · rintro ⟨c, v, rfl, -, rfl⟩
      rfl
    · intro h
      obtain ⟨c, v, rfl⟩ := List.exists_cons_of_length_eq_add_one h
      exact ⟨c, v, rfl, .inl rfl, Nat.succ.inj h⟩

theorem matches_append {u : List Char} (hu : '%' ∉ u) (h : Matches ps t) : Matches (u ++ ps) (u ++ t) := by
  induction u with
  | nil => exact h
  | cons c u ih =>
    rw [List.mem_cons, not_or] at hu
    exact (matchesBy_cons_iff (Ne.symm hu.1)).2 ⟨c, u ++ t, rfl, .inr rfl, ih hu.2⟩

theorem matchesFirst_append_iff (u : List Char) : MatchesFirst (u ++ ps) (u ++ t) ↔ MatchesFirst ps t := by
  induction u with
  | nil => rfl
  | cons c u ih => exact (matchesFirst_cons_of_fits (.inr rfl)).trans ih

/-- On a text with a `%` some match is not found: of a pattern with more to come behind the first `%` than the
text has. -/
theorem exists_matches_of_mem (ht : '%' ∈ t) : ∃ ps, Matches ps t ∧ ¬MatchesFirst ps t := by
  obtain ⟨u, v, rfl, hu⟩ := List.eq_append_cons_of_mem ht
  refine ⟨u ++ '%' :: List.replicate (v.length + 1) '_', matches_append hu ?_, fun h => ?_⟩
  · exact matchesBy_run_iff.2 ⟨[], _, rfl, trivial, matchesBy_replicate_iff.2 rfl⟩
  · rw [matchesFirst_append_iff, matchesFirst_cons_of_fits (.inr rfl)] at h
    have hlen := matchesBy_replicate_iff.1 h
    omega

/-! ## When a text is like a pattern -/

/-- The search ends on every text and pattern, finds a match exactly under its own rule for `%`, and none that
the rules of the language do not have. On a text it agrees with the rules for every pattern exactly when the
text has no `%`. -/
theorem like_matches_iff (text : String) :
    (∀ pattern : String, (like text pattern = true ↔ MatchesFirst pattern.toList text.toList) ∧
      (like text pattern = true → Matches pattern.toList text.toList)) ∧
    ((∀ pattern : String, like text pattern = true ↔ Matches pattern.toList text.toList) ↔ '%' ∉ text.toList) := by
  have hfound := like_iff_matchesFirst text
  have hsound : ∀ pattern : String, like text pattern = true → Matches pattern.toList text.toList :=
    fun pattern h => matches_of_matchesFirst ((hfound pattern).1 h)
  refine ⟨fun pattern => ⟨hfound pattern, hsound pattern⟩, fun h ht => ?_, fun ht pattern => ⟨hsound pattern, ?_⟩⟩
  · obtain ⟨ps, hm, hn⟩ := exists_matches_of_mem ht
    have hp := hfound (String.ofList ps)
    rw [h, String.toList_ofList] at hp
    exact hn (hp.1 hm)
  · exact fun h => (hfound pattern).2 (matchesFirst_of_matches ht h)

/-- The `%` of the pattern is used up by the `%` of the text. -/
theorem not_like_matches : ¬∀ text pattern : String, like text pattern = true ↔ Matches pattern.toList text.toList := by
  intro h
  have hm : Matches "a%".toList "a%b".toList :=
    matches_append (u := ['a']) (by decide) (matchesBy_run_iff.2 ⟨['%', 'b'], [], rfl, trivial, .nil⟩)
  exact absurd ((h "a%b" "a%").2 hm) (by simp [like, likeFrom])

end TableQuery.Text
