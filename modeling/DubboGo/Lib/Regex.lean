import Mathlib

/-!
# Searching with regular expressions

Regular expressions are Mathlib's, and `matches'` is their language.  A search wants more: where a match begins, and
which of the matches at a place is taken.  `suffixes` are what can be left of a text after a match at its beginning,
in the order in which a backtracking matcher tries them; `search` is the leftmost match, and `allMatches` are the
matches from left to right.  An iteration that takes nothing is not tried.
-/

namespace DubboGo.Lib

open List

variable {α : Type*}

namespace Regex

def oneOf (l : List α) : RegularExpression α := (l.map .char).sum

/-- `r+`. -/
def oneOrMore (r : RegularExpression α) : RegularExpression α := r * r.star

variable {w : List α} {r : RegularExpression α}

theorem mem_oneOf {l : List α} : w ∈ (oneOf l).matches' ↔ ∃ a ∈ l, w = [a] := by
  induction l with
  | nil =>
    constructor
    · intro h
      exact absurd h (Language.notMem_zero w)
    · rintro ⟨a, ha, -⟩
      cases ha
  | cons b l ih =>
    have hcons : w ∈ (oneOf (b :: l)).matches' ↔ w = [b] ∨ w ∈ (oneOf l).matches' := Iff.rfl
    rw [hcons, ih, exists_mem_cons_iff]

theorem map_oneOf {β : Type*} (f : α → β) (l : List α) : (oneOf l).map f = oneOf (l.map f) := by
  induction l with
  | nil => rfl
  | cons a l ih =>
    have hcons : (oneOf (a :: l)).map f = .char (f a) + (oneOf l).map f := rfl
    rw [hcons, ih]
    rfl

section Search

variable [DecidableEq α] {xs ys : List α}

/-- What is left after some iterations of `next`, which has all it needs with as much fuel as there are
characters. -/
def iterate (next : List α → List (List α)) : ℕ → List α → List (List α)
  | 0, xs => [xs]
  | fuel + 1, xs =>
    ((next xs).filter fun ys => ys.length < xs.length).flatMap (iterate next fuel) ++ [xs]

def suffixes : RegularExpression α → List α → List (List α)
  | .zero, _ => []
  | .epsilon, xs => [xs]
  | .char _, [] => []
  | .char a, b :: xs => if a = b then [xs] else []
  | .plus r s, xs => suffixes r xs ++ suffixes s xs
  | .comp r s, xs => (suffixes r xs).flatMap (suffixes s)
  | .star r, xs => iterate (suffixes r) xs.length xs

def search (r : RegularExpression α) : List α → Option (List α × List α × List α)
  | [] => (suffixes r []).head?.map fun _ => ([], [], [])
  | x :: xs =>
    match (suffixes r (x :: xs)).head? with
    | some ys => some ([], (x :: xs).take ((x :: xs).length - ys.length), ys)
    | none => (search r xs).map fun found => (x :: found.1, found.2)

/-- The matches from left to right.  An empty match right after another one (`abuts`) is left out, and the search
goes on behind the next character. -/
def allMatchesFrom (r : RegularExpression α) : ℕ → Bool → List α → List (List α)
  | 0, _, _ => []
  | fuel + 1, abuts, xs =>
    match search r xs with
    | none => []
    | some ([], [], _) =>
      let later := match xs with
        | [] => []
        | _ :: ys => allMatchesFrom r fuel false ys
      if abuts then later else [] :: later
    | some (_, w, ys) => w :: allMatchesFrom r fuel true ys

def allMatches (r : RegularExpression α) (xs : List α) : List (List α) :=
  allMatchesFrom r (xs.length + 1) false xs

/-! ## The matches are those of the language -/

omit [DecidableEq α] in
theorem mem_iterate {next : List α → List (List α)} {l : Language α}
    (hnext : ∀ xs ys, ys ∈ next xs ↔ ∃ w ∈ l, xs = w ++ ys) {fuel : ℕ} (hfuel : xs.length ≤ fuel) :
    ys ∈ iterate next fuel xs ↔ ∃ w ∈ KStar.kstar l, xs = w ++ ys := by
  induction fuel generalizing xs with
  | zero =>
    obtain rfl := eq_nil_of_length_eq_zero (Nat.le_zero.1 hfuel)
    rw [iterate, mem_singleton]
    constructor
    · rintro rfl
      exact ⟨[], Language.nil_mem_kstar l, rfl⟩
    · rintro ⟨w, -, hw⟩
      exact (append_eq_nil_iff.1 hw.symm).2
  | succ fuel ih =>
    rw [iterate, mem_append, mem_flatMap, mem_singleton]
    constructor
    · rintro (⟨zs, hzs, hys⟩ | rfl)
      · rw [mem_filter, hnext, decide_eq_true_eq] at hzs
        obtain ⟨⟨w, hw, rfl⟩, hshorter⟩ := hzs
        obtain ⟨v, hv, rfl⟩ := (ih (by omega)).1 hys
        obtain ⟨words, rfl, hwords⟩ := Language.mem_kstar.1 hv
        refine ⟨w ++ words.flatten, Language.mem_kstar.2 ⟨w :: words, rfl, ?_⟩, (append_assoc ..).symm⟩
        exact forall_mem_cons.2 ⟨hw, hwords⟩
      · exact ⟨[], Language.nil_mem_kstar l, rfl⟩
    · rintro ⟨v, hv, rfl⟩
      rw [Language.kstar_def_nonempty] at hv
      obtain ⟨words, rfl, hwords⟩ := hv
      -- the first word, if there is one, is taken in the first iteration
      cases words with
      | nil => exact .inr rfl
      | cons w words =>
        obtain ⟨hw, hne⟩ := hwords w mem_cons_self
        refine .inl ⟨words.flatten ++ ys, mem_filter.2 ⟨(hnext _ _).2 ⟨w, hw, ?_⟩, ?_⟩, ?_⟩
        · exact append_assoc ..
        · have hpos := length_pos_iff.2 hne
          simpa using hpos
        · refine (ih ?_).2 ⟨words.flatten, Language.mem_kstar.2 ⟨words, rfl, ?_⟩, rfl⟩
          · have hpos := length_pos_iff.2 hne
            simp only [flatten_cons, length_append] at hfuel ⊢
            omega
          · intro v hv
            exact (hwords v (mem_cons_of_mem w hv)).1

/-- What is left after a match at the beginning. -/
theorem mem_suffixes {r : RegularExpression α} : ys ∈ suffixes r xs ↔ ∃ w ∈ r.matches', xs = w ++ ys := by
  induction r generalizing xs ys with
  | zero =>
    constructor
    · intro h
      cases h
    · rintro ⟨w, hw, -⟩
      exact absurd hw (Language.notMem_zero w)
  | epsilon =>
    rw [suffixes, mem_singleton]
    constructor
    · rintro rfl
      exact ⟨[], Language.nil_mem_one, rfl⟩
    · rintro ⟨w, hw, rfl⟩
      rw [(Language.mem_one w).1 hw, nil_append]
  | char a =>
    constructor
    · intro h
      cases xs with
      | nil => cases h
      | cons b xs =>
        rw [suffixes] at h
        split_ifs at h with hab
        · rw [mem_singleton] at h
          exact ⟨[a], rfl, by rw [hab, h]; rfl⟩
        · cases h
    · rintro ⟨w, hw, rfl⟩
      obtain rfl : w = [a] := hw
      rw [singleton_append, suffixes, if_pos rfl]
      exact mem_singleton_self ys
  | plus r s ihr ihs =>
    have hadd : ∀ w, w ∈ (RegularExpression.plus r s).matches' ↔ w ∈ r.matches' ∨ w ∈ s.matches' :=
      fun w => Iff.rfl
    rw [suffixes, mem_append, ihr, ihs]
    constructor
    · rintro (⟨w, hw, hxs⟩ | ⟨w, hw, hxs⟩)
      · exact ⟨w, (hadd w).2 (.inl hw), hxs⟩
      · exact ⟨w, (hadd w).2 (.inr hw), hxs⟩
    · rintro ⟨w, hw, hxs⟩
      rcases (hadd w).1 hw with hw | hw
      · exact .inl ⟨w, hw, hxs⟩
      · exact .inr ⟨w, hw, hxs⟩
  | comp r s ihr ihs =>
    rw [suffixes, mem_flatMap]
    constructor
    · rintro ⟨zs, hzs, hys⟩
      obtain ⟨w, hw, rfl⟩ := ihr.1 hzs
      obtain ⟨v, hv, rfl⟩ := ihs.1 hys
      exact ⟨w ++ v, Language.append_mem_mul hw hv, (append_assoc ..).symm⟩
    · rintro ⟨_, hwv, rfl⟩
      obtain ⟨w, hw, v, hv, rfl⟩ := Language.mem_mul.1 hwv
      exact ⟨v ++ ys, ihr.2 ⟨w, hw, append_assoc ..⟩, ihs.2 ⟨v, hv, rfl⟩⟩
  | star r ih => exact mem_iterate (fun xs ys => ih) le_rfl

end Search

/-! ## What the words of a language are made of -/

def letters : RegularExpression α → List α
  | .zero | .epsilon => []
  | .char a => [a]
  | .plus r s | .comp r s => letters r ++ letters s
  | .star r => letters r

theorem mem_letters (hw : w ∈ r.matches') {a : α} (ha : a ∈ w) : a ∈ letters r := by
  induction r generalizing w with
  | zero => exact absurd hw (Language.notMem_zero w)
  | epsilon =>
    obtain rfl : w = [] := hw
    cases ha
  | char b =>
    obtain rfl : w = [b] := hw
    exact ha
  | plus r s ihr ihs =>
    rcases (Language.mem_add _ _ w).1 hw with hw | hw
    · exact mem_append_left _ (ihr hw ha)
    · exact mem_append_right _ (ihs hw ha)
  | comp r s ihr ihs =>
    obtain ⟨u, hu, v, hv, rfl⟩ := Language.mem_mul.1 hw
    rcases mem_append.1 ha with ha | ha
    · exact mem_append_left _ (ihr hu ha)
    · exact mem_append_right _ (ihs hv ha)
  | star r ih =>
    obtain ⟨words, rfl, hwords⟩ := Language.mem_kstar.1 hw
    obtain ⟨v, hv, ha⟩ := mem_flatten.1 ha
    exact ih (hwords v hv) ha

def heads : RegularExpression α → List α
  | .zero | .epsilon => []
  | .char a => [a]
  | .plus r s => heads r ++ heads s
  | .comp r s => heads r ++ (if r.matchEpsilon then heads s else [])
  | .star r => heads r

theorem matchEpsilon_iff : r.matchEpsilon = true ↔ [] ∈ r.matches' := by
  classical
  exact RegularExpression.rmatch_iff_matches' r []

theorem mem_heads {a : α} (hw : a :: w ∈ r.matches') : a ∈ heads r := by
  induction r generalizing w with
  | zero => exact absurd hw (Language.notMem_zero _)
  | epsilon => cases (show a :: w = [] from hw)
  | char b =>
    cases (show a :: w = [b] from hw)
    exact mem_singleton_self a
  | plus r s ihr ihs =>
    rcases (Language.mem_add _ _ _).1 hw with hw | hw
    · exact mem_append_left _ (ihr hw)
    · exact mem_append_right _ (ihs hw)
  | comp r s ihr ihs =>
    obtain ⟨u, hu, v, hv, heq⟩ := Language.mem_mul.1 hw
    cases u with
    | nil =>
      rw [nil_append] at heq
      rw [heq] at hv
      rw [heads, if_pos (matchEpsilon_iff.2 hu)]
      exact mem_append_right _ (ihs hv)
    | cons b u =>
      cases heq
      exact mem_append_left _ (ihr hu)
  | star r ih =>
    replace hw : a :: w ∈ KStar.kstar r.matches' := hw
    rw [Language.kstar_def_nonempty] at hw
    obtain ⟨words, heq, hwords⟩ := hw
    cases words with
    | nil => cases heq
    | cons v words =>
      obtain ⟨hv, hne⟩ := hwords v mem_cons_self
      obtain ⟨b, u, rfl⟩ := exists_cons_of_ne_nil hne
      cases heq
      exact ih hv

/-! ## Languages in which no word begins another one -/

def PrefixFree (l : Language α) : Prop := ∀ v ∈ l, ∀ w ∈ l, v <+: w → v = w

namespace PrefixFree

variable {l m : Language α}

theorem eq_of_append (h : PrefixFree l) {v w ys zs : List α} (hv : v ∈ l) (hw : w ∈ l)
    (heq : v ++ ys = w ++ zs) : v = w := by
  have hpre : v <+: w ++ zs := heq ▸ prefix_append v ys
  rcases prefix_or_prefix_of_prefix hpre (prefix_append w zs) with hvw | hwv
  · exact h v hv w hw hvw
  · exact (h w hw v hv hwv).symm

theorem oneOf (chars : List α) : PrefixFree (Regex.oneOf chars).matches' := by
  intro v hv w hw hpre
  obtain ⟨a, -, rfl⟩ := mem_oneOf.1 hv
  obtain ⟨b, -, rfl⟩ := mem_oneOf.1 hw
  exact hpre.eq_of_length rfl

theorem char (a : α) : PrefixFree (RegularExpression.char a).matches' := by
  rintro v rfl w rfl -
  rfl

theorem mul (hl : PrefixFree l) (hm : PrefixFree m) : PrefixFree (l * m) := by
  intro v hv w hw hpre
  obtain ⟨v₁, hv₁, v₂, hv₂, rfl⟩ := Language.mem_mul.1 hv
  obtain ⟨w₁, hw₁, w₂, hw₂, rfl⟩ := Language.mem_mul.1 hw
  obtain ⟨zs, hzs⟩ := hpre
  rw [append_assoc] at hzs
  obtain rfl := hl.eq_of_append hv₁ hw₁ hzs
  rw [hm v₂ hv₂ w₂ hw₂ ⟨zs, append_cancel_left hzs⟩]

variable {r s : RegularExpression α}

/-- An alternative is prefix-free if its parts are and begin with different letters. -/
theorem add (hr : PrefixFree r.matches') (hs : PrefixFree s.matches') (hnil : r.matchEpsilon = false)
    (hnil' : s.matchEpsilon = false) (hheads : ∀ a ∈ heads r, a ∉ heads s) : PrefixFree (r + s).matches' := by
  have hcross : ∀ v ∈ r.matches', ∀ w ∈ s.matches', ¬(v <+: w) ∧ ¬(w <+: v) := by
    intro v hv w hw
    cases v with
    | nil => exact nomatch hnil.symm.trans (matchEpsilon_iff.2 hv)
    | cons a u =>
      cases w with
      | nil => exact nomatch hnil'.symm.trans (matchEpsilon_iff.2 hw)
      | cons b u' =>
        have hne : a ≠ b := by
          rintro rfl
          exact hheads a (mem_heads hv) (mem_heads hw)
        exact ⟨fun h => hne (cons_prefix_cons.1 h).1, fun h => hne (cons_prefix_cons.1 h).1.symm⟩
  intro v hv w hw hpre
  rcases (Language.mem_add _ _ v).1 hv with hv | hv <;> rcases (Language.mem_add _ _ w).1 hw with hw | hw
  · exact hr v hv w hw hpre
  · exact absurd hpre (hcross v hv w hw).1
  · exact absurd hpre (hcross w hw v hv).2
  · exact hs v hv w hw hpre

theorem mul_char {c : α} (hc : c ∉ letters r) : PrefixFree (r * RegularExpression.char c).matches' := by
  intro v hv w hw hpre
  obtain ⟨v, -, _, rfl, rfl⟩ := Language.mem_mul.1 hv
  obtain ⟨w, hw', _, rfl, rfl⟩ := Language.mem_mul.1 hw
  rcases prefix_concat_iff.1 hpre with heq | hpre'
  · exact heq
  · have hmem : c ∈ w := hpre'.subset (mem_append_right v (mem_singleton_self c))
    exact absurd (mem_letters hw' hmem) hc

theorem star_char_mul {a : α} (hr : PrefixFree r.matches') (hhead : a ∉ heads r)
    (hnil : r.matchEpsilon = false) : PrefixFree ((RegularExpression.char a).star * r).matches' := by
  have hform : ∀ w ∈ ((RegularExpression.char a).star * r).matches',
      ∃ n, ∃ u ∈ r.matches', w = replicate n a ++ u := by
    intro w hw
    obtain ⟨v, hv, u, hu, rfl⟩ := Language.mem_mul.1 hw
    obtain ⟨words, rfl, hwords⟩ := Language.mem_kstar.1 hv
    refine ⟨words.length, u, hu, ?_⟩
    rw [eq_replicate_of_mem (a := [a]) (l := words) hwords, flatten_replicate_singleton]
    simp
  have hcons : ∀ u ∈ r.matches', ∃ b u', u = b :: u' ∧ b ≠ a := by
    intro u hu
    cases u with
    | nil => exact nomatch hnil.symm.trans (matchEpsilon_iff.2 hu)
    | cons b u =>
      refine ⟨b, u, rfl, ?_⟩
      rintro rfl
      exact hhead (mem_heads hu)
  intro v hv w hw hpre
  obtain ⟨n, u, hu, rfl⟩ := hform v hv
  obtain ⟨k, u', hu', rfl⟩ := hform w hw
  clear hv hw
  induction n generalizing k with
  | zero =>
    cases k with
    | zero => exact hr u hu u' hu' hpre
    | succ k =>
      obtain ⟨b, u, rfl, hne⟩ := hcons u hu
      exact absurd (cons_prefix_cons.1 hpre).1 hne
  | succ n ih =>
    cases k with
    | zero =>
      obtain ⟨b, u', rfl, hne⟩ := hcons u' hu'
      exact absurd (cons_prefix_cons.1 hpre).1.symm hne
    | succ k => exact congrArg (a :: ·) (ih k (cons_prefix_cons.1 hpre).2)

end PrefixFree

/-! ## Taking a text apart -/

section Search

variable [DecidableEq α] {r : RegularExpression α}

theorem search_append (h : PrefixFree r.matches') {w : List α} (hw : w ∈ r.matches') (hne : w ≠ [])
    (ys : List α) : search r (w ++ ys) = some ([], w, ys) := by
  have hmem : ys ∈ suffixes r (w ++ ys) := mem_suffixes.2 ⟨w, hw, rfl⟩
  have honly : ∀ zs ∈ suffixes r (w ++ ys), zs = ys := by
    intro zs hzs
    obtain ⟨v, hv, heq⟩ := mem_suffixes.1 hzs
    obtain rfl := h.eq_of_append hw hv heq
    exact (append_cancel_left heq).symm
  have hhead : (suffixes r (w ++ ys)).head? = some ys := by
    cases hs : suffixes r (w ++ ys) with
    | nil =>
      rw [hs] at hmem
      cases hmem
    | cons zs rest =>
      rw [head?_cons, honly zs (hs ▸ mem_cons_self)]
  obtain ⟨a, u, rfl⟩ := exists_cons_of_ne_nil hne
  have hlength : (a :: (u ++ ys)).length - ys.length = (a :: u).length := by
    simp only [length_cons, length_append]
    omega
  rw [cons_append] at hhead ⊢
  rw [search, hhead]
  dsimp only
  rw [hlength, ← cons_append, take_left]

theorem allMatches_flatten (h : PrefixFree r.matches') (hnil : r.matchEpsilon = false) {words : List (List α)}
    (hwords : ∀ w ∈ words, w ∈ r.matches') : allMatches r words.flatten = words := by
  have hend : search r [] = none := by
    rw [search]
    cases hs : suffixes r [] with
    | nil => rfl
    | cons ys rest =>
      obtain ⟨w, hw, heq⟩ := mem_suffixes.1 (hs ▸ mem_cons_self)
      rw [(append_eq_nil_iff.1 heq.symm).1] at hw
      exact nomatch hnil.symm.trans (matchEpsilon_iff.2 hw)
  have hfrom : ∀ fuel abuts, words.flatten.length < fuel → allMatchesFrom r fuel abuts words.flatten = words := by
    induction words with
    | nil =>
      intro fuel abuts hfuel
      obtain ⟨fuel, rfl⟩ := Nat.exists_eq_succ_of_ne_zero (Nat.ne_zero_of_lt hfuel)
      rw [flatten_nil, allMatchesFrom, hend]
    | cons w words ih =>
      intro fuel abuts hfuel
      obtain ⟨fuel, rfl⟩ := Nat.exists_eq_succ_of_ne_zero (Nat.ne_zero_of_lt hfuel)
      have hw : w ∈ r.matches' := hwords w mem_cons_self
      have hne : w ≠ [] := by
        rintro rfl
        exact nomatch hnil.symm.trans (matchEpsilon_iff.2 hw)
      have hpos := length_pos_iff.2 hne
      rw [flatten_cons, length_append] at hfuel
      obtain ⟨a, u, rfl⟩ := exists_cons_of_ne_nil hne
      unfold allMatchesFrom
      rw [flatten_cons, search_append h hw hne]
      dsimp only
      rw [ih (fun v hv => hwords v (mem_cons_of_mem _ hv)) fuel true (by omega)]
  exact hfrom _ _ (Nat.lt_succ_self _)

end Search

end Regex

end DubboGo.Lib
