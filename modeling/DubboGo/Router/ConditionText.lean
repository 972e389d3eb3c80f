import DubboGo.Router.ConditionParser

/-!
# What a condition rule says

The values of the matchers that `processMatchers` makes, compared with the clauses that stand in the text.
-/

namespace DubboGo.Router.Condition

open Go List

def IsKey (pair : Str × Str) : Prop := pair.1 = [] ∨ pair.1 = str "&"

def IsOperator (pair : Str × Str) : Prop := pair.1 = str "=" ∨ pair.1 = str "!="

instance decidableIsKey (pair : Str × Str) : Decidable (IsKey pair) := inferInstanceAs (Decidable (_ ∨ _))

instance decidableIsOperator (pair : Str × Str) : Decidable (IsOperator pair) := inferInstanceAs (Decidable (_ ∨ _))

/-- What the text says at some place: the key introduced last, and the key of the operator read last with whether it is
`!=`.  A key without a separator begins anew, and is no longer that of an operator before it. -/
structure Clause where
  key : Option Str
  opened : Option (Str × Bool)
  deriving DecidableEq

def Clause.next (clause : Clause) (pair : Str × Str) : Clause :=
  if pair.1 = [] then ⟨some pair.2, clause.opened.filter fun o => o.1 ≠ pair.2⟩
  else if pair.1 = str "&" then { clause with key := some pair.2 }
  else if IsOperator pair then { clause with opened := clause.key.map fun key => (key, pair.1 = str "!=") }
  else clause

namespace Parse

variable {rule : Str} {pairs : List (Str × Str)} {pair : Str × Str} {p q : Parse}

/-- What a pair does: a key is begun or found again, an operator or a comma adds a value. -/
theorem process_cases (h : p.process rule pair = .ok q) :
    ((pair.1 = [] ∨ pair.1 = str "&" ∧ ∀ i, (pair.2, i) ∉ p.condition) ∧ q = p.newMatcher pair.2) ∨
      (pair.1 = str "&" ∧ ∃ i, (pair.2, i) ∈ p.condition ∧ q = { p with currentMatcher := some i }) ∨
      (¬IsKey pair ∧ IsOperator pair ∧ ∃ i, p.currentMatcher = some i ∧ q = p.addValue i (pair.1 = str "!=") pair.2) ∨
      (¬IsKey pair ∧ ¬IsOperator pair ∧ pair.1 = str "," ∧
        ∃ i b, p.values = some (i, b) ∧ q = p.addValue i b pair.2) := by
  obtain ⟨separator, content⟩ := pair
  unfold process IsKey IsOperator at *
  dsimp only at h ⊢
  split_ifs at h with hnil hand hoperator hcomma
  · exact .inl ⟨.inl hnil, (Except.ok.inj h).symm⟩
  · split at h
    · rename_i i hfound
      have hkey := find?_some hfound
      refine .inr (.inl ⟨hand, i, ?_, (Except.ok.inj h).symm⟩)
      rw [← of_decide_eq_true hkey]
      exact mem_of_find?_eq_some hfound
    · rename_i hmissing
      refine .inl ⟨.inr ⟨hand, fun i hi => ?_⟩, (Except.ok.inj h).symm⟩
      simpa using find?_eq_none.1 hmissing _ hi
  · split at h
    · rename_i i hcurrent
      exact .inr (.inr (.inl ⟨not_or.2 ⟨hnil, hand⟩, hoperator, i, hcurrent, (Except.ok.inj h).symm⟩))
    · cases h
  · split at h
    · rename_i i b hvalues
      exact .inr (.inr (.inr ⟨not_or.2 ⟨hnil, hand⟩, hoperator, hcomma, i, b, hvalues, (Except.ok.inj h).symm⟩))
    · cases h

def keyAt (p : Parse) (i : ℕ) : Option Str := p.matchers[i]?.map Matcher.key

theorem keyAt_addValue (i : ℕ) (b : Bool) (cont : Str) (p : Parse) (j : ℕ) :
    (p.addValue i b cont).keyAt j = p.keyAt j := by
  unfold keyAt addValue
  dsimp only
  rw [getElem?_modify]
  cases p.matchers[j]? with
  | none => rfl
  | some m =>
    dsimp only [Option.map_some]
    split_ifs <;> rfl

theorem key_getMatcher (key : Str) : (getMatcher key).key = key := by
  unfold getMatcher
  split_ifs <;> rfl

theorem keyAt_newMatcher (cont : Str) (p : Parse) (j : ℕ) :
    (p.newMatcher cont).keyAt j = if j = p.matchers.length then some cont else p.keyAt j := by
  unfold keyAt newMatcher
  dsimp only
  rw [getElem?_append]
  split_ifs with hlt heq heq
  · omega
  · rfl
  · simp [heq, key_getMatcher]
  · rw [getElem?_eq_none (by simp; omega), getElem?_eq_none (by omega)]

/-- A key that begins anew replaces its own entry and no other. -/
theorem mem_newMatcher_iff {content : Str} {e : Str × ℕ} :
    e ∈ (p.newMatcher content).condition ↔ e = (content, p.matchers.length) ∨ e ∈ p.condition ∧ e.1 ≠ content := by
  unfold newMatcher
  dsimp only
  split_ifs with hany
  · rw [mem_map]
    constructor
    · rintro ⟨e', he', rfl⟩
      split_ifs with hkey
      · exact .inl rfl
      · exact .inr ⟨he', hkey⟩
    · rintro (rfl | ⟨he, hkey⟩)
      · obtain ⟨e', he', hkey⟩ := any_eq_true.1 hany
        exact ⟨e', he', if_pos (of_decide_eq_true hkey)⟩
      · exact ⟨e, he, if_neg hkey⟩
  · rw [mem_append, mem_singleton, or_comm]
    refine or_congr_right ⟨fun he => ⟨he, fun hkey => hany ?_⟩, And.left⟩
    exact any_eq_true.2 ⟨e, he, decide_eq_true hkey⟩

/-- The variables of the parser fit the clause.  A set that is extended is that of a matcher in the map exactly if the
text still has its operator. -/
structure Tracks (clause : Clause) (p : Parse) : Prop where
  keys : ∀ e ∈ p.condition, p.keyAt e.2 = some e.1
  current : ∀ i, p.currentMatcher = some i → ∃ key, clause.key = some key ∧ (key, i) ∈ p.condition
  values : ∀ i b, p.values = some (i, b) → i < p.matchers.length ∧ clause.key.isSome = true ∧
    (∀ key, (key, i) ∈ p.condition ↔ clause.opened = some (key, b))

theorem Tracks.newMatcher {clause : Clause} (h : Tracks clause p)
    (hpair : pair.1 = [] ∨ pair.1 = str "&" ∧ ∀ i, (pair.2, i) ∉ p.condition) :
    Tracks (clause.next pair) (p.newMatcher pair.2) := by
  have hkey : (clause.next pair).key = some pair.2 := by
    unfold Clause.next
    rcases hpair with hnil | ⟨hand, -⟩
    · rw [if_pos hnil]
    · rw [if_neg (by rw [hand]; decide), if_pos hand]
  refine ⟨fun e he => ?_, fun i hi => ⟨pair.2, hkey, ?_⟩, fun i b hvalues => ?_⟩
  · rw [keyAt_newMatcher]
    rcases mem_newMatcher_iff.1 he with rfl | ⟨he, -⟩
    · exact if_pos rfl
    · have hold := h.keys e he
      rw [if_neg, hold]
      rintro heq
      simp [keyAt, heq] at hold
  · cases hi
    exact mem_newMatcher_iff.2 (.inl rfl)
  · obtain ⟨hlt, -, hopened⟩ := h.values i b hvalues
    refine ⟨?_, by rw [hkey]; rfl, fun key => ?_⟩
    · simp only [Parse.newMatcher, length_append]
      omega
    · -- the new matcher is not the one whose set is extended
      rw [mem_newMatcher_iff, Prod.mk.injEq, hopened, or_iff_right (fun hnew => hlt.ne hnew.2)]
      unfold Clause.next
      rcases hpair with hnil | ⟨hand, hmissing⟩
      · rw [if_pos hnil]
        simp only [Option.filter_eq_some_iff, decide_eq_true_eq]
      · rw [if_neg (by rw [hand]; decide), if_pos hand]
        refine and_iff_left_of_imp fun hsome heq => hmissing i ?_
        rw [← heq]
        exact (hopened key).2 hsome

theorem Tracks.addValue {clause : Clause} (h : Tracks clause p) {i : ℕ} {b : Bool} {content : Str}
    {opened : Option (Str × Bool)} (hlt : i < p.matchers.length) (hkey : clause.key.isSome = true)
    (hopened : ∀ key, (key, i) ∈ p.condition ↔ opened = some (key, b)) :
    Tracks { clause with opened := opened } (p.addValue i b content) := by
  refine ⟨fun e he => (keyAt_addValue ..).trans (h.keys e he), h.current, fun j c hvalues => ?_⟩
  cases hvalues
  exact ⟨hlt.trans_eq (length_modify ..).symm, hkey, hopened⟩

theorem Tracks.lt_length {clause : Clause} (h : Tracks clause p) {e : Str × ℕ} (he : e ∈ p.condition) :
    e.2 < p.matchers.length := by
  have hkey := h.keys e he
  by_contra hge
  rw [keyAt, getElem?_eq_none (not_lt.1 hge)] at hkey
  cases hkey

theorem Tracks.process {clause : Clause} (h : Tracks clause p) (hprocess : p.process rule pair = .ok q) :
    Tracks (clause.next pair) q := by
  obtain ⟨hpair, rfl⟩ | ⟨hand, i, hi, rfl⟩ | ⟨hkey, hoperator, i, hcurrent, rfl⟩ |
    ⟨hkey, hoperator, -, i, b, hvalues, rfl⟩ := process_cases hprocess
  · exact h.newMatcher hpair
  · have hnext : clause.next pair = { clause with key := some pair.2 } := by
      unfold Clause.next
      rw [if_neg (by rw [hand]; decide), if_pos hand]
    rw [hnext]
    refine ⟨h.keys, fun j hj => ⟨pair.2, rfl, ?_⟩, fun j b hvalues => ?_⟩
    · cases hj
      exact hi
    · obtain ⟨hlt, -, hopened⟩ := h.values j b hvalues
      exact ⟨hlt, rfl, hopened⟩
  · obtain ⟨key, hclause', hi⟩ := h.current i hcurrent
    have hnext : clause.next pair = { clause with opened := some (key, pair.1 = str "!=") } := by
      unfold Clause.next
      rw [if_neg (fun hnil' => hkey (.inl hnil')), if_neg (fun hand => hkey (.inr hand)), if_pos hoperator, hclause']
      rfl
    rw [hnext]
    refine h.addValue (h.lt_length hi) (by rw [hclause']; rfl) fun key' => ⟨fun hi' => ?_, fun heq => ?_⟩
    · have hsame : some key = some key' := (h.keys _ hi).symm.trans (h.keys (key', i) hi')
      rw [Option.some.inj hsame]
    · cases heq
      exact hi
  · have hnext : clause.next pair = clause := by
      unfold Clause.next
      rw [if_neg (fun hnil' => hkey (.inl hnil')), if_neg (fun hand => hkey (.inr hand)), if_neg hoperator]
    obtain ⟨hlt, hclause', hopened⟩ := h.values i b hvalues
    rw [hnext]
    exact h.addValue hlt hclause' hopened

end Parse

end DubboGo.Router.Condition
