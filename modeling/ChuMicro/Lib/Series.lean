import Mathlib.Algebra.Order.Group.Unbundled.Int
import Mathlib.Data.List.SplitBy

/-!
# Series of intervals

Intervals that follow each other closely form a series. A series is known to be over when no
interval has begun for a while.

## Main definitions

* `Signals.near` — an interval begins soon after another one has ended.
* `Signals.seriesLengths` — how many intervals there are in each series.

## Main results

* `Signals.seriesLengths_append` — a series that is over.
-/

namespace Signals

/-- An interval begins less than `gap` after another one has ended. -/
def near (gap : ℤ) (a b : ℤ × ℤ) : Bool := b.1 - a.2 < gap

/-- How many intervals there are in each series. -/
def seriesLengths (gap : ℤ) (intervals : List (ℤ × ℤ)) : List ℕ :=
  (intervals.splitBy (near gap)).map List.length

variable {gap : ℤ} {closed series : List (ℤ × ℤ)}

/-- Intervals that end in a series: all of one series, and apart from what is before. -/
structure EndsInSeries (gap : ℤ) (closed series : List (ℤ × ℤ)) : Prop where
  chain : series.IsChain fun a b => near gap a b
  apart : ∀ x ∈ closed.getLast?, ∀ y ∈ series.head?, x.2 + gap ≤ y.1

lemma endsInSeries_nil (gap : ℤ) (closed : List (ℤ × ℤ)) : EndsInSeries gap closed [] :=
  ⟨List.isChain_nil, by simp⟩

/-- **A series that is over** is counted. -/
theorem seriesLengths_append (h : EndsInSeries gap closed series) (hne : series ≠ []) :
    seriesLengths gap (closed ++ series) = seriesLengths gap closed ++ [series.length] := by
  have happart : ∀ x ∈ closed.getLast?, ∀ y ∈ series.head?, near gap x y = false := by
    intro x hx y hy
    have := h.apart x hx y hy
    simp only [near, decide_eq_false_iff_not]
    omega
  rw [seriesLengths, List.splitBy_append happart, List.splitBy_of_isChain hne h.chain, List.map_append]
  rfl

/-- One more interval in a series. -/
lemma EndsInSeries.concat {x : ℤ × ℤ} (h : EndsInSeries gap closed series)
    (hnear : ∀ y ∈ series.getLast?, x.1 - y.2 < gap)
    (hapart : series = [] → ∀ y ∈ closed.getLast?, y.2 + gap ≤ x.1) :
    EndsInSeries gap closed (series ++ [x]) := by
  constructor
  · refine List.isChain_append.mpr ⟨h.chain, List.isChain_singleton x, fun y hy z hz => ?_⟩
    obtain rfl : x = z := by simpa using hz
    simpa only [near, decide_eq_true_eq] using hnear y hy
  · intro y hy z hz
    cases series with
    | nil =>
      obtain rfl : x = z := by simpa using hz
      exact hapart rfl y hy
    | cons first rest => exact h.apart y hy z hz

end Signals
