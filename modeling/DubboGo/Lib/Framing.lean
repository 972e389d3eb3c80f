import Mathlib

/-!
# Packages in a stream

The bytes of a connection come in chunks that have nothing to do with its packages.  After each chunk a reader takes
packages off the front as long as there are any.  What the decoder makes of some bytes may depend on how many packages
have been taken before.
-/

namespace DubboGo.Lib

open List

inductive Reading (ρ : Type*) where
  /-- A package, and how many bytes it has. -/
  | package (result : ρ) (n : ℕ)
  | incomplete
  | failed

namespace Framing

variable {β ρ : Type*} (read : ℕ → List β → Reading ρ)

/-- Takes packages off the front after `k` others; what is left is `none` after a failure.  As much fuel as there
are bytes is enough. -/
def drain : ℕ → ℕ → List β → List ρ × Option (List β)
  | 0, _, buffer => ([], some buffer)
  | _ + 1, _, [] => ([], some [])
  | fuel + 1, k, buffer =>
    match read k buffer with
    | .package result n =>
      let later := drain fuel (k + 1) (buffer.drop n)
      (result :: later.1, later.2)
    | .incomplete => ([], some buffer)
    | .failed => ([], none)

def receive : ℕ → List β → List (List β) → List ρ × Option (List β)
  | _, buffer, [] => ([], some buffer)
  | k, buffer, chunk :: chunks =>
    match drain read (buffer ++ chunk).length k (buffer ++ chunk) with
    | (results, none) => (results, none)
    | (results, some rest) =>
      let later := receive (k + results.length) rest chunks
      (results ++ later.1, later.2)

/-- The decoder knows the packages by their bytes: it gives their results whatever follows, and asks for more as
long as bytes are missing. -/
inductive Delimited : ℕ → List (List β) → List ρ → Prop
  | nil (k : ℕ) : Delimited k [] []
  | cons {k : ℕ} {package : List β} {packages : List (List β)} {result : ρ} {results : List ρ}
      (nonempty : package ≠ [])
      (whole : ∀ rest, read k (package ++ rest) = .package result package.length)
      (part : ∀ buffer, buffer <+: package → buffer ≠ package → read k buffer = .incomplete)
      (later : Delimited (k + 1) packages results) :
      Delimited k (package :: packages) (result :: results)

variable {read} {k : ℕ} {packages : List (List β)} {results : List ρ} {buffer later : List β} {chunks : List (List β)}

theorem Delimited.length_eq (h : Delimited read k packages results) : results.length = packages.length := by
  induction h with
  | nil k => rfl
  | cons nonempty whole part later ih => rw [length_cons, length_cons, ih]

theorem Delimited.drop (h : Delimited read k packages results) {m : ℕ} (hm : m ≤ packages.length) :
    Delimited read (k + m) (packages.drop m) (results.drop m) := by
  induction m generalizing k packages results with
  | zero => exact h
  | succ m ih =>
    cases h with
    | nil k => cases hm
    | cons nonempty whole part later =>
      rw [← Nat.succ_add_eq_add_succ]
      exact ih later (Nat.le_of_succ_le_succ hm)

structure Taken (packages : List (List β)) (results : List ρ) (buffer : List β)
    (outcome : List ρ × Option (List β)) (m : ℕ) (rest : List β) : Prop where
  bound : m ≤ packages.length
  outcome_eq : outcome = (results.take m, some rest)
  buffer_eq : buffer = (packages.take m).flatten ++ rest
  incomplete : ∀ package, packages[m]? = some package → ¬package <+: rest

theorem drain_succ (hbuffer : buffer ≠ []) (fuel : ℕ) :
    drain read (fuel + 1) k buffer =
      match read k buffer with
      | .package result n =>
        let later := drain read fuel (k + 1) (buffer.drop n)
        (result :: later.1, later.2)
      | .incomplete => ([], some buffer)
      | .failed => ([], none) := by
  cases buffer with
  | nil => exact absurd rfl hbuffer
  | cons b buffer => rfl

theorem drain_of_part {pkg : List β} (hbegins : buffer <+: pkg) (hne : buffer ≠ pkg)
    (hpart : ∀ buffer, buffer <+: pkg → buffer ≠ pkg → read k buffer = .incomplete) (fuel : ℕ) :
    drain read fuel k buffer = ([], some buffer) := by
  cases fuel with
  | zero => rfl
  | succ fuel =>
    cases hbuffer : buffer with
    | nil => rfl
    | cons b bytes =>
      rw [hbuffer] at hbegins hne
      rw [drain_succ (cons_ne_nil b bytes), hpart _ hbegins hne]

theorem drain_of_delimited (h : Delimited read k packages results) {fuel : ℕ}
    (hbuffer : buffer ++ later = packages.flatten) (hfuel : buffer.length ≤ fuel) :
    ∃ m rest, Taken packages results buffer (drain read fuel k buffer) m rest := by
  induction h generalizing buffer fuel with
  | nil k =>
    obtain ⟨rfl, rfl⟩ := append_eq_nil_iff.1 hbuffer
    refine ⟨0, [], le_rfl, ?_, rfl, nofun⟩
    cases fuel <;> rfl
  | @cons k package packages result results nonempty whole part more ih =>
    by_cases hwhole : package <+: buffer
    · obtain ⟨bytes, rfl⟩ := hwhole
      have hpos : 0 < package.length := length_pos_iff.2 nonempty
      rw [length_append] at hfuel
      obtain ⟨fuel, rfl⟩ := Nat.exists_eq_succ_of_ne_zero (show fuel ≠ 0 by omega)
      rw [append_assoc] at hbuffer
      obtain ⟨m, rest, htaken⟩ := ih (append_cancel_left hbuffer) (show bytes.length ≤ fuel by omega)
      refine ⟨m + 1, rest, Nat.succ_le_succ htaken.bound, ?_, ?_, htaken.incomplete⟩
      · rw [drain_succ (append_ne_nil_of_left_ne_nil nonempty _), whole]
        dsimp only
        rw [drop_left, htaken.outcome_eq, take_succ_cons]
      · rw [take_succ_cons, flatten_cons, append_assoc, ← htaken.buffer_eq]
    · have hbegins : buffer <+: package := by
        have hleft : buffer <+: package ++ packages.flatten := ⟨later, hbuffer⟩
        exact (List.prefix_or_prefix_of_prefix hleft (prefix_append _ _)).resolve_right hwhole
      have hne : buffer ≠ package := by
        rintro rfl
        exact hwhole (prefix_refl _)
      refine ⟨0, buffer, Nat.zero_le _, drain_of_part hbegins hne part fuel, rfl, ?_⟩
      rintro _ ⟨⟩
      exact hwhole

theorem receive_of_delimited (h : Delimited read k packages results)
    (hbuffer : buffer ++ (chunks.flatten ++ later) = packages.flatten)
    (hincomplete : ∀ pkg, packages[0]? = some pkg → ¬pkg <+: buffer) :
    ∃ m rest, Taken packages results (buffer ++ chunks.flatten) (receive read k buffer chunks) m rest := by
  induction chunks generalizing k buffer packages results with
  | nil => exact ⟨0, buffer, Nat.zero_le _, rfl, append_nil _, hincomplete⟩
  | cons chunk chunks ih =>
    rw [flatten_cons, append_assoc, ← append_assoc] at hbuffer
    obtain ⟨m, rest, htaken⟩ := drain_of_delimited h hbuffer le_rfl
    have hlength : (results.take m).length = m := by
      rw [length_take, h.length_eq, min_eq_left htaken.bound]
    -- what is left of the stream are the packages that have not been taken
    have hrest : rest ++ (chunks.flatten ++ later) = (packages.drop m).flatten := by
      rw [htaken.buffer_eq, append_assoc, ← take_append_drop m packages, flatten_append, take_append_drop] at hbuffer
      exact append_cancel_left hbuffer
    have hnext : ∀ pkg, (packages.drop m)[0]? = some pkg → ¬pkg <+: rest := by
      intro pkg hpackage
      rw [getElem?_drop] at hpackage
      exact htaken.incomplete pkg hpackage
    obtain ⟨m', rest', htaken'⟩ := ih (h.drop htaken.bound) hrest hnext
    refine ⟨m + m', rest', ?_, ?_, ?_, ?_⟩
    · have hbound := htaken'.bound
      have := htaken.bound
      rw [length_drop] at hbound
      omega
    · rw [receive, htaken.outcome_eq]
      dsimp only
      rw [hlength, htaken'.outcome_eq, take_add]
    · rw [flatten_cons, ← append_assoc, htaken.buffer_eq, append_assoc, htaken'.buffer_eq,
        take_add, flatten_append, append_assoc]
    · intro pkg hpackage
      refine htaken'.incomplete pkg ?_
      rw [getElem?_drop]
      exact hpackage

theorem receive_of_begins (h : Delimited read k packages results) (hbegins : chunks.flatten <+: packages.flatten) :
    ∃ m rest, Taken packages results chunks.flatten (receive read k [] chunks) m rest := by
  obtain ⟨later, hlater⟩ := hbegins
  have hincomplete : ∀ pkg, packages[0]? = some pkg → ¬pkg <+: [] := by
    intro pkg hpackage hnil
    cases h with
    | nil k => cases hpackage
    | cons nonempty whole part more =>
      cases hpackage
      exact nonempty (prefix_nil.1 hnil)
  exact receive_of_delimited h hlater hincomplete

/-- All the packages of a stream are taken when there is nothing else in it. -/
theorem Taken.all {outcome : List ρ × Option (List β)} {m : ℕ} {rest : List β}
    (h : Taken packages results packages.flatten outcome m rest) (hlength : results.length = packages.length) :
    outcome = (results, some []) := by
  have hrest : rest = (packages.drop m).flatten := by
    have hflatten := h.buffer_eq
    rw [← take_append_drop m packages, flatten_append, take_append_drop] at hflatten
    exact (append_cancel_left hflatten).symm
  have hm : m = packages.length := by
    by_contra hne
    have hlt : m < packages.length := lt_of_le_of_ne h.bound hne
    refine h.incomplete packages[m] (getElem?_eq_getElem hlt) ?_
    rw [hrest, drop_eq_getElem_cons hlt, flatten_cons]
    exact prefix_append _ _
  rw [h.outcome_eq, hrest, hm, drop_length, ← hlength, take_length]
  rfl

end Framing

end DubboGo.Lib
