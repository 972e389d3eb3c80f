import DubboGo.Cluster.RoundRobin

/-!
# Interleaved weighted round robin

`cluster/loadbalance/iwrr`: a picker keeps its invokers in two queues, and an invoker goes to the back of the current
one until its weight is used up.  `Select` makes a picker for every call, so each start offset leads to the invoker at
that position.
-/

namespace DubboGo.Cluster.InterleavedRoundRobin

open Go Common List Finset

/-- `iwrrEntry`. -/
structure Entry (ι : Type) where
  weight : ℤ
  invoker : ι

/-- `interleavedweightedRoundRobin`; a queue is a list with its head first. -/
structure Picker (ι : Type) where
  current : List (Entry ι)
  next : List (Entry ι)
  step : ℤ

def gcdInt (a b : ℤ) : ℤ := if b = 0 then a else gcdInt b (a.tmod b)
termination_by b.natAbs
decreasing_by
  rename_i h
  rw [Int.natAbs_tmod]
  exact Nat.mod_lt _ (Int.natAbs_pos.2 h)

section Picker

variable {ι : Type} (quotient : Quotient) (getURL : ι → URL)

/-- The round of the loop of `NewInterleavedweightedRoundRobin` for one invoker. -/
def Picker.add (methodName : Str) (now : ℤ) (p : Picker ι) (invoker : ι) : Picker ι :=
  let weight := getWeightAt quotient (getURL invoker) methodName now
  { p with current := p.current ++ [⟨weight, invoker⟩], step := gcdInt p.step weight }

/-- `NewInterleavedweightedRoundRobin` at the time `now`, where `draw` is the random number. -/
def newPicker (invokers : List ι) (methodName : Str) (now : ℤ) (draw : ℕ) : Picker ι :=
  let size := invokers.length
  let offset := draw % size
  let rotated := (List.range size).filterMap fun idx => invokers[(idx + offset) % size]?
  rotated.foldl (Picker.add quotient getURL methodName now) ⟨[], [], 0⟩

/-- `Pick` at the time `now`; there is no pick from a picker without entries. -/
def Picker.pick (methodName : Str) (now : ℤ) (p : Picker ι) : Option ι × Picker ι :=
  let p := if p.current = [] then { p with current := p.next, next := p.current } else p
  match p.current with
  | [] => (none, p)
  | entry :: rest =>
    let weight := int64 (entry.weight - p.step)
    if 0 < weight then
      (some entry.invoker, { p with current := rest ++ [{ entry with weight := weight }] })
    else
      let weight := max (getWeightAt quotient (getURL entry.invoker) methodName now) 0
      (some entry.invoker, { p with
        current := rest
        next := p.next ++ [{ entry with weight := weight }] })

/-- `interleavedWeightedRoundRobinBalance.Select`, with the times of its two looks at the clock and
the random number it draws. -/
def select (invokers : List ι) (methodName : Str) (now later : ℤ) (draw : ℕ) : Option ι :=
  match invokers with
  | [] => none
  | [invoker] => some invoker
  | invokers =>
    ((newPicker quotient getURL invokers methodName now draw).pick quotient getURL methodName later).1

end Picker

/-! ## The first pick -/

section FirstPick

variable {ι : Type} {quot : Quotient} {getURL : ι → URL} {ivks : List ι} {meth : Str} {now later : ℤ}

theorem invokers_foldl_add (l : List ι) (p : Picker ι) :
    (l.foldl (Picker.add quot getURL meth now) p).current.map Entry.invoker = p.current.map Entry.invoker ++ l := by
  induction l generalizing p with
  | nil => simp
  | cons x l ih =>
    rw [foldl_cons, ih]
    simp [Picker.add]

theorem pick_of_cons {p : Picker ι} {x : ι} {l : List ι} (h : p.current.map Entry.invoker = x :: l) :
    (p.pick quot getURL meth later).1 = some x := by
  obtain ⟨ent, rest, hcurrent, rfl, -⟩ := map_eq_cons_iff.1 h
  unfold Picker.pick
  rw [if_neg (by simp [hcurrent])]
  dsimp only
  rw [hcurrent]
  dsimp only
  split_ifs <;> rfl

theorem select_eq (h : 2 ≤ ivks.length) (draw : ℕ) : select quot getURL ivks meth now later draw =
      ivks[draw % ivks.length]? := by
  have hselect : select quot getURL ivks meth now later draw =
      ((newPicker quot getURL ivks meth now draw).pick quot getURL meth
        later).1 := by
    match ivks, h with
    | _ :: _ :: _, _ => rfl
  have hlt : draw % ivks.length < ivks.length := Nat.mod_lt _ (by omega)
  obtain ⟨n, hn⟩ : ∃ n, ivks.length = n + 1 := ⟨ivks.length - 1, by omega⟩
  rw [hselect, getElem?_eq_getElem hlt]
  -- the loop starts with index zero, that is at the offset
  have hfirst : ∃ l, (List.range ivks.length).filterMap
      (fun idx => ivks[(idx + draw % ivks.length) % ivks.length]?) =
        ivks[draw % ivks.length] :: l := by
    conv => enter [1, l, 1, 2]; rw [hn]
    rw [range_succ_eq_map, filterMap_cons, Nat.zero_add, Nat.mod_eq_of_lt hlt, getElem?_eq_getElem hlt]
    exact ⟨_, rfl⟩
  obtain ⟨l, hl⟩ := hfirst
  apply pick_of_cons (l := l)
  rw [newPicker, invokers_foldl_add, hl]
  rfl

end FirstPick

/-! ## Shares -/

section Shares

variable {ι : Type} [DecidableEq ι]

/-- The share of the start offsets with which `Select` returns `x`. -/
def share (quotient : Quotient) (getURL : ι → URL) (invokers : List ι) (methodName : Str)
    (now later : ℤ) (x : ι) : ℚ :=
  ((Finset.range invokers.length).filter fun offset =>
    select quotient getURL invokers methodName now later offset = some x).card / invokers.length

/-- The part of the weights that `x` has. -/
def weightShare (w : ι → ℕ) (invokers : List ι) (x : ι) : ℚ :=
  (invokers.count x * w x : ℕ) / (invokers.map w).sum

theorem card_positions (l : List ι) (x : ι) :
    ((Finset.range l.length).filter fun i => l[i]? = some x).card = l.count x := by
  induction l using reverseRecOn with
  | nil => rfl
  | append_singleton l y ih =>
    have hold : (Finset.range l.length).filter (fun i => (l ++ [y])[i]? = some x) =
        (Finset.range l.length).filter fun i => l[i]? = some x := by
      apply Finset.filter_congr
      intro i hi
      rw [List.getElem?_append_left (Finset.mem_range.1 hi)]
    rw [List.length_append, List.length_singleton, Finset.range_add_one, Finset.filter_insert,
      hold, getElem?_concat_length, count_append, count_singleton, ← ih]
    by_cases hy : y = x
    · simp [hy]
    · simp [hy]

theorem share_eq {quotient : Quotient} {getURL : ι → URL} {invokers : List ι} {methodName : Str}
    {now later : ℤ} (h : 2 ≤ invokers.length) (x : ι) : share quotient getURL invokers methodName now later x =
      (invokers.count x : ℚ) / invokers.length := by
  unfold share
  rw [← card_positions]
  congr 2
  apply congrArg card
  apply Finset.filter_congr
  intro offset hoffset
  rw [select_eq h, Nat.mod_eq_of_lt (Finset.mem_range.1 hoffset)]

theorem share_eq_weightShare_iff {l : List ι} {w : ι → ℕ} {x : ι} (hx : x ∈ l) (hpos : 0 < (l.map w).sum) :
    (l.count x : ℚ) / l.length = weightShare w l x ↔ w x * l.length = (l.map w).sum := by
  have hcount : (l.count x : ℚ) ≠ 0 := by
    exact_mod_cast (count_pos_iff.2 hx).ne'
  have hlength : (l.length : ℚ) ≠ 0 := by
    exact_mod_cast (length_pos_of_mem hx).ne'
  have hsum : ((l.map w).sum : ℚ) ≠ 0 := by
    exact_mod_cast hpos.ne'
  unfold weightShare
  rw [div_eq_div_iff hlength hsum, Nat.cast_mul, mul_assoc, mul_right_inj' hcount, eq_comm]
  exact_mod_cast Iff.rfl

/-- Over its start offsets, `Select` returns every invoker as often as its weight asks for just when
all weights are the same. -/
theorem weights_honoured_iff (quotient : Quotient) (getURL : ι → URL) (invokers : List ι)
    (methodName : Str) (now later : ℤ) (w : ι → ℕ) (h : 2 ≤ invokers.length)
    (hw : ∀ x ∈ invokers, 0 < w x ∧ ∀ t, getWeightAt quotient (getURL x) methodName t = w x) :
    (∀ x ∈ invokers, share quotient getURL invokers methodName now later x = weightShare w invokers x) ↔
      ∀ x ∈ invokers, ∀ y ∈ invokers, w x = w y := by
  have hlength : 0 < invokers.length := by omega
  have hpos : 0 < (invokers.map w).sum := by
    obtain ⟨x, hx⟩ := exists_mem_of_length_pos hlength
    exact (hw x hx).1.trans_le (single_le_sum (by simp) _ (mem_map_of_mem hx))
  constructor
  · intro hall x hx y hy
    have hx' := hall x hx
    have hy' := hall y hy
    rw [share_eq h, share_eq_weightShare_iff hx hpos] at hx'
    rw [share_eq h, share_eq_weightShare_iff hy hpos] at hy'
    exact Nat.eq_of_mul_eq_mul_right hlength (hx'.trans hy'.symm)
  · intro hsame x hx
    rw [share_eq h, share_eq_weightShare_iff hx hpos]
    have hconst : invokers.map w = invokers.map fun _ => w x :=
      map_congr_left fun y hy => hsame y hy x hx
    rw [hconst, map_const', sum_replicate, smul_eq_mul, Nat.mul_comm]

end Shares

/-! ## Two invokers -/

/-- With the weights 1 and 2, each of the two invokers gets half of the start offsets. -/
theorem pair_not_honoured :
    (∀ i t, getWeightAt (fun _ _ _ => 0) (RoundRobin.Calls.pair.getURL i) (str "say") t = (if i then 2 else 1 : ℕ)) ∧
    ¬ ∀ x ∈ [false, true],
      share (fun _ _ _ => 0) RoundRobin.Calls.pair.getURL [false, true] (str "say") 0 0 x =
        weightShare (fun i => if i then 2 else 1) [false, true] x := by
  refine ⟨fun i t => ?_, fun hall => ?_⟩
  · rw [getWeightAt_of_no_timestamp _ _ _ (by cases i <;> decide)]
    cases i <;> decide
  have htrue := hall true (by decide)
  rw [share_eq (by decide), share_eq_weightShare_iff (by decide) (by decide)] at htrue
  exact absurd htrue (by decide)

/-- Two invokers with the default weight. -/
theorem default_weights_honoured :
    (∀ i t, getWeightAt (fun _ _ _ => 0)
      { RoundRobin.Calls.pair.getURL i with params := Values.empty } (str "say") t = 100) ∧
    ∀ x ∈ [false, true],
      share (fun _ _ _ => 0) (fun i => { RoundRobin.Calls.pair.getURL i with params := Values.empty })
          [false, true] (str "say") 0 0 x =
        weightShare (fun _ => 100) [false, true] x := by
  have hweight : ∀ i t, getWeightAt (fun _ _ _ => 0)
      { RoundRobin.Calls.pair.getURL i with params := Values.empty } (str "say") t = 100 := by
    intro i t
    rw [getWeightAt_of_no_timestamp _ _ _ rfl]
    rfl
  refine ⟨hweight, (weights_honoured_iff (fun _ _ _ => 0)
    (fun i => { RoundRobin.Calls.pair.getURL i with params := Values.empty }) [false, true]
    (str "say") 0 0 (fun _ => 100) (by decide) ?_).2 fun _ _ _ _ => rfl⟩
  intro x _
  exact ⟨by decide, hweight x⟩

end DubboGo.Cluster.InterleavedRoundRobin
