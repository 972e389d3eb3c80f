import DubboGo.Go.Text

/-!
# The limits on calls per interval

The strategies of `filter/tps/strategy`.  Times and intervals are `int64` numbers of nanoseconds.
-/

namespace DubboGo.Filter.TpsLimit

open Go List

def nanoseconds (interval : ℤ) : ℤ := int64 (interval * 1000000)

/-! ## The sliding window -/

/-- `SlidingWindowTpsLimitStrategy`. -/
structure SlidingWindow where
  rate : ℤ
  interval : ℤ
  queue : List ℤ

namespace SlidingWindow

def create (rate interval : ℤ) : SlidingWindow := ⟨rate, nanoseconds interval, []⟩

def isAllowable (s : SlidingWindow) (current : ℤ) : Bool × SlidingWindow :=
  if s.queue.length < s.rate then (true, { s with queue := s.queue ++ [current] })
  else
    let queue := s.queue.dropWhile (· < int64 (current - s.interval))
    if queue.length < s.rate then (true, { s with queue := queue ++ [current] })
    else (false, { s with queue := queue })

/-- The times of the calls that were allowed, and the strategy after the calls. -/
def run (s : SlidingWindow) (times : List ℤ) : List ℤ × SlidingWindow :=
  times.foldl (fun p t =>
    (if (p.2.isAllowable t).1 then p.1 ++ [t] else p.1, (p.2.isAllowable t).2)) ([], s)

variable {s : SlidingWindow} {l ts : List ℤ} {b t : ℤ}

theorem le_of_mem_dropWhile (hl : l.Pairwise (· ≤ ·)) : ∀ x ∈ l.dropWhile (· < b), b ≤ x := by
  induction l with
  | nil => nofun
  | cons c l ih =>
    obtain ⟨hc, hl⟩ := pairwise_cons.1 hl
    rw [dropWhile_cons]
    split_ifs with hlt
    · exact ih hl
    · intro x hx
      have hle : b ≤ c := by simpa using hlt
      rcases mem_cons.1 hx with rfl | hx
      · exact hle
      · exact hle.trans (hc x hx)

theorem isAllowable_cases (hs : s.queue.Pairwise (· ≤ ·)) (hb : int64 (t - s.interval) = t - s.interval) :
    ∃ old queue, s.queue = old ++ queue ∧ (∀ x ∈ old, x < t - s.interval) ∧
      (queue.length < s.rate ∨ ∀ x ∈ queue, t - s.interval ≤ x) ∧ s.isAllowable t =
        (decide (queue.length < s.rate), { s with queue := if queue.length < s.rate then queue ++ [t] else queue }) := by
  unfold isAllowable
  rw [hb]
  by_cases hsz : s.queue.length < s.rate
  · exact ⟨[], s.queue, rfl, nofun, .inl hsz, by simp [hsz]⟩
  · refine ⟨_, _, takeWhile_append_dropWhile.symm, fun x hx => ?_, .inr (le_of_mem_dropWhile hs), ?_⟩
    · simpa using mem_takeWhile_imp hx
    · rw [if_neg hsz]
      dsimp only
      split_ifs with hfew <;> simp [hfew]

/-- The call at time `x` counts at time `t`. -/
def recent (interval t x : ℤ) : Bool := t - interval ≤ x ∧ x ≤ t

/-- The queue is what is left of the calls that were allowed when some were dropped, all of them before `b`. -/
def Tracks (allowed queue : List ℤ) (b : ℤ) : Prop := ∃ old, allowed = old ++ queue ∧ ∀ x ∈ old, x < b

theorem isAllowable_spec (h : Tracks l s.queue (t - s.interval)) (hl : l.Pairwise (· ≤ ·)) (hle : ∀ x ∈ l, x ≤ t)
    (hb : int64 (t - s.interval) = t - s.interval) :
    ((s.isAllowable t).1 = true ↔ l.countP (recent s.interval t) < s.rate) ∧
      (s.isAllowable t).2.rate = s.rate ∧ (s.isAllowable t).2.interval = s.interval ∧
      Tracks (if (s.isAllowable t).1 then l ++ [t] else l) (s.isAllowable t).2.queue (t - s.interval) := by
  obtain ⟨old, rfl, hold⟩ := h
  obtain ⟨old', queue, hq, hold', hfull, heq⟩ := isAllowable_cases (pairwise_append.1 hl).2.1 hb
  have hall : ∀ x ∈ old ++ old', x < t - s.interval := fun x hx => (mem_append.1 hx).elim (hold x) (hold' x)
  have hzero : (old ++ old').countP (recent s.interval t) = 0 :=
    countP_eq_zero.2 fun x hx hr => absurd (of_decide_eq_true hr).1 (not_le.2 (hall x hx))
  rw [hq, ← append_assoc] at hle ⊢
  rw [heq, countP_append, hzero, zero_add]
  refine ⟨?_, rfl, rfl, old ++ old', ?_, hall⟩
  · rw [decide_eq_true_iff]
    constructor
    · have := countP_le_length (p := recent s.interval t) (l := queue)
      omega
    · rcases hfull with hfew | hge
      · exact fun _ => hfew
      · have hlen : queue.countP (recent s.interval t) = queue.length :=
          countP_eq_length.2 fun x hx => decide_eq_true ⟨hge x hx, hle x (mem_append_right _ hx)⟩
        rw [hlen]
        exact id
  · by_cases hfew : queue.length < s.rate <;> simp [hfew]

theorem run_concat (s : SlidingWindow) (ts : List ℤ) (t : ℤ) : s.run (ts ++ [t]) =
    (if ((s.run ts).2.isAllowable t).1 then (s.run ts).1 ++ [t] else (s.run ts).1,
      ((s.run ts).2.isAllowable t).2) := by
  rw [run, foldl_concat, ← run]

theorem run_spec (h0 : s.queue = []) (hb : ∀ x ∈ ts ++ [t], int64 (x - s.interval) = x - s.interval)
    (hs : (ts ++ [t]).Pairwise (· ≤ ·)) :
    (s.run ts).2.rate = s.rate ∧ (s.run ts).2.interval = s.interval ∧ (s.run ts).1.Sublist ts ∧
      Tracks (s.run ts).1 (s.run ts).2.queue (t - s.interval) := by
  induction ts using reverseRecOn generalizing t with
  | nil => exact ⟨rfl, rfl, .refl _, [], h0.symm, nofun⟩
  | append_singleton ts u ih =>
    obtain ⟨hts, -, hut⟩ := pairwise_append.1 hs
    obtain ⟨hsort, -, hle⟩ := pairwise_append.1 hts
    obtain ⟨hr, hi, hsub, htr⟩ := ih (fun x hx => hb x (mem_append_left _ hx)) hts
    rw [← hi] at htr
    obtain ⟨-, hr', hi', dropped, heq, hlt⟩ := isAllowable_spec htr (hsort.sublist hsub)
      (fun x hx => hle x (hsub.mem hx) u mem_cons_self) (hi ▸ hb u (by simp))
    rw [run_concat]
    refine ⟨hr'.trans hr, hi'.trans hi, ?_, dropped, heq, fun x hx => ?_⟩
    · dsimp only
      split_ifs
      · exact hsub.append (.refl _)
      · exact hsub.trans (sublist_append_left _ _)
    · have hxu := hlt x hx
      have := hut u (by simp) t mem_cons_self
      omega

theorem run_isAllowable (h0 : s.queue = []) (hb : ∀ x ∈ ts ++ [t], int64 (x - s.interval) = x - s.interval)
    (hs : (ts ++ [t]).Pairwise (· ≤ ·)) :
    (((s.run ts).2.isAllowable t).1 = true ↔ ((s.run ts).1.countP (recent s.interval t) : ℤ) < s.rate) ∧
      ∀ x ∈ (s.run ts).1, x ≤ t := by
  obtain ⟨hr, hi, hsub, htr⟩ := run_spec h0 hb hs
  obtain ⟨hsort, -, hle⟩ := pairwise_append.1 hs
  have hbefore : ∀ x ∈ (s.run ts).1, x ≤ t := fun x hx => hle x (hsub.mem hx) t mem_cons_self
  rw [← hi] at htr
  obtain ⟨hiff, -⟩ := isAllowable_spec htr (hsort.sublist hsub) hbefore (hi ▸ hb t (by simp))
  rw [hi, hr] at hiff
  exact ⟨hiff, hbefore⟩

theorem countP_run_le (h0 : s.queue = []) (hb : ∀ x ∈ ts, int64 (x - s.interval) = x - s.interval)
    (hs : ts.Pairwise (· ≤ ·)) (e : ℤ) : ((s.run ts).1.countP (recent s.interval e) : ℤ) ≤ max s.rate 0 := by
  induction ts using reverseRecOn with
  | nil => exact le_max_right _ _
  | append_singleton ts u ih =>
    have hts := ih (fun x hx => hb x (mem_append_left _ hx)) (pairwise_append.1 hs).1
    obtain ⟨hiff, hle⟩ := run_isAllowable h0 hb hs
    rw [run_concat]
    dsimp only
    split_ifs with hal
    · rw [countP_append, countP_singleton]
      split_ifs with hu
      · -- what counts at the end of the window counted for the last call in it
        have hmono : (s.run ts).1.countP (recent s.interval e) ≤ (s.run ts).1.countP (recent s.interval u) := by
          refine countP_mono_left fun x hx hxe => ?_
          have hxu := hle x hx
          simp only [recent, decide_eq_true_eq] at hu hxe ⊢
          omega
        have hlt := hiff.1 hal
        have := le_max_left s.rate 0
        push_cast
        omega
      · exact hts
    · exact hts

/-- A call is allowed if and only if fewer than `rate` of the earlier calls within the interval were, and no closed
window of that length has more, if the interval is an `int64` number of nanoseconds. -/
theorem isAllowable_iff (rate interval : ℤ) (hpos : 0 < interval) (hmax : interval * 1000000 < 2 ^ 63)
    (htime : ∀ x ∈ ts ++ [t], 0 ≤ x ∧ x < 2 ^ 63)
    (hs : (ts ++ [t]).Pairwise (· ≤ ·)) :
    (((create rate interval).run ts).2.isAllowable t).1 =
        decide ((((create rate interval).run ts).1.countP (recent (interval * 1000000) t) : ℤ) < rate) ∧
      ∀ e, (((create rate interval).run (ts ++ [t])).1.countP (recent (interval * 1000000) e) : ℤ) ≤ max rate 0 := by
  have hint : (create rate interval).interval = interval * 1000000 := int64_of_bounds (by omega) hmax
  have hb : ∀ x ∈ ts ++ [t], int64 (x - (create rate interval).interval) = x - (create rate interval).interval := by
    intro x hx
    have hx := htime x hx
    exact int64_of_bounds (by omega) (by omega)
  rw [← hint]
  refine ⟨?_, countP_run_le rfl hb hs⟩
  rw [Bool.eq_iff_iff, decide_eq_true_iff]
  exact (run_isAllowable rfl hb hs).1

theorem isAllowable_second :
    (((create 1 1).run [5]).2.isAllowable 1000005).1 = false ∧ ((create 1 1).run [5]).1 = [5] := by
  have hs : ([5] ++ [1000005] : List ℤ).Pairwise (· ≤ ·) := by decide
  exact ⟨(isAllowable_iff 1 1 (by decide) (by decide) (by decide) hs).1.trans (by decide), by decide⟩

/-- The interval of 584 years is one of 448384 nanoseconds. -/
theorem isAllowable_twice : ((create 1 18446744073710).run [0]).1 = [0] ∧
    (((create 1 18446744073710).run [0]).2.isAllowable 1000000).1 = true ∧
    recent (18446744073710 * 1000000) 1000000 0 = true := by
  decide

end SlidingWindow

/-! ## The fixed window -/

/-- `FixedWindowTpsLimitStrategy`; `rate` and `count` are `int32` numbers. -/
structure FixedWindow where
  rate : ℤ
  interval : ℤ
  count : ℤ
  timestamp : ℤ

namespace FixedWindow

def create (rate interval now : ℤ) : FixedWindow := ⟨int32 rate, nanoseconds interval, 0, now⟩

/-- The window that the call at time `current` falls into. -/
def enter (s : FixedWindow) (current : ℤ) : FixedWindow :=
  if int64 (s.timestamp + s.interval) < current then { s with timestamp := current, count := 0 } else s

def isAllowable (s : FixedWindow) (current : ℤ) : Bool × FixedWindow :=
  let s := s.enter current
  let count := int32 (s.count + 1)
  (count ≤ s.rate, { s with count := count })

def calls (s : FixedWindow) : List ℤ → List Bool
  | [] => []
  | t :: ts => (s.isAllowable t).1 :: (s.isAllowable t).2.calls ts

/-- The calls that fall into a window that was opened at `start`, and those of the windows after it. -/
def windows (interval start : ℤ) : List ℤ → List ℤ × List (List ℤ)
  | [] => ([], [])
  | t :: ts =>
    if start + interval < t then ([], (t :: (windows interval t ts).1) :: (windows interval t ts).2)
    else (t :: (windows interval start ts).1, (windows interval start ts).2)

/-- What becomes of the calls of a window when `n` others came before them. -/
def firstAllowed (rate n : ℕ) (window : List ℤ) : List Bool := (range' n window.length).map (· < rate)

variable {rate n m : ℕ} {interval start t u : ℤ} {ts : List ℤ}

theorem calls_cons (henter : enter ⟨rate, interval, n, start⟩ t = ⟨rate, interval, m, u⟩) (hm : m + 1 < 2 ^ 31) :
    (FixedWindow.mk rate interval n start).calls (t :: ts) =
      decide (m < rate) :: (FixedWindow.mk rate interval (m + 1 : ℕ) u).calls ts := by
  have hcount : int32 (m + 1) = (m + 1 : ℕ) := int32_of_bounds (by omega) (by omega)
  simp only [calls, isAllowable, henter, hcount, Nat.cast_le, Nat.lt_iff_add_one_le]

theorem calls_eq (h0 : 0 ≤ interval) (hmax : ∀ t ∈ start :: ts, 0 ≤ t ∧ t + interval < 2 ^ 63)
    (hfew : n + (windows interval start ts).1.length < 2 ^ 31)
    (hlater : ∀ w ∈ (windows interval start ts).2, w.length < 2 ^ 31) :
    (FixedWindow.mk rate interval n start).calls ts = firstAllowed rate n (windows interval start ts).1 ++
      (windows interval start ts).2.flatMap (firstAllowed rate 0) := by
  induction ts generalizing start n with
  | nil => rfl
  | cons t ts ih =>
    have hstart := hmax start mem_cons_self
    have hend : int64 (start + interval) = start + interval := int64_of_bounds (by omega) hstart.2
    have htail := (forall_mem_cons.1 hmax).2
    by_cases hnew : start + interval < t
    · rw [windows, if_pos hnew] at hlater ⊢
      obtain ⟨hopen, hlater⟩ := forall_mem_cons.1 hlater
      rw [length_cons] at hopen
      rw [calls_cons (m := 0) (u := t) (by rw [enter, hend, if_pos hnew]; rfl) (by omega),
        ih htail (by omega) hlater]
      rfl
    · rw [windows, if_neg hnew] at hfew hlater ⊢
      rw [length_cons] at hfew
      rw [calls_cons (by rw [enter, hend, if_neg hnew]) (by omega),
        ih (forall_mem_cons.2 ⟨hstart, (forall_mem_cons.1 htail).2⟩) (by omega) hlater]
      rfl

/-- In each window the first `rate` calls are allowed, if the rate and the number of calls of a window are `int32`
numbers and the windows end at `int64` numbers of nanoseconds. -/
theorem calls_create (hrate : rate < 2 ^ 31) (hpos : 0 < interval)
    (hmax : ∀ t ∈ start :: ts, 0 ≤ t ∧ t + interval * 1000000 < 2 ^ 63)
    (hfew : ∀ w ∈ (windows (interval * 1000000) start ts).1 :: (windows (interval * 1000000) start ts).2,
      w.length < 2 ^ 31) :
    (create rate interval start).calls ts =
      ((windows (interval * 1000000) start ts).1 :: (windows (interval * 1000000) start ts).2).flatMap
        (firstAllowed rate 0) := by
  have hstart := hmax start mem_cons_self
  have hint : nanoseconds interval = interval * 1000000 := int64_of_bounds (by omega) (by omega)
  obtain ⟨hfirst, hlater⟩ := forall_mem_cons.1 hfew
  rw [create, hint, int32_of_bounds (by omega) (by omega)]
  exact calls_eq (n := 0) (by omega) hmax (by omega) hlater

theorem calls_three : (create (2 : ℕ) 1 0).calls [10, 20, 30] = [true, true, false] :=
  (calls_create (by decide) (by decide) (by decide) (by decide)).trans (by decide)

/-- A rate of `2 ^ 31` allows nothing. -/
theorem calls_none : (create (2 ^ 31) 1 0).calls [10] = [false] := by decide

end FixedWindow

end DubboGo.Filter.TpsLimit
