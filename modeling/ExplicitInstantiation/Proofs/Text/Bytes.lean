import ExplicitInstantiation.Text.Basic

/-!
# Offsets in bytes

An offset in bytes belongs to a place of a text if it is the length of what stands before the place
(`Text.IsBoundary`). There the text can be cut (`cutAtByte?_append`).

What stands before an offset is determined by it: of two texts that a text starts with, the one with
fewer bytes starts the other (`isPrefix_of_byteLength_le`).
-/

namespace ExplicitInstantiation

namespace Text

/-- A text that stands in one that is no longer is all of it. -/
theorem eq_of_isInfix {s t : Text} (h : s <:+: t) (hle : t.byteLength ≤ s.byteLength) :
    s = t := by
  have hempty {u : Text} (hu : u.byteLength = 0) : u = [] := by
    rcases u with _ | ⟨c, u⟩
    · rfl
    · have := c.utf8Size_pos
      rw [byteLength_cons] at hu
      omega
  obtain ⟨before, after, rfl⟩ := h
  rw [byteLength_append, byteLength_append] at hle
  have hbefore : before = [] := hempty (by omega)
  have hafter : after = [] := hempty (by omega)
  rw [hbefore, hafter, List.nil_append, List.append_nil]

/-- The beginning of a text has no more bytes than the text. -/
theorem byteLength_le_of_isPrefix {s t : Text} (h : s <+: t) : s.byteLength ≤ t.byteLength := by
  obtain ⟨rest, rfl⟩ := h
  rw [byteLength_append]
  exact Nat.le_add_right _ _

/-- More characters are more bytes. -/
theorem byteLength_lt_of_isPrefix {s t : Text} (h : s <+: t) (hlt : s.length < t.length) :
    s.byteLength < t.byteLength := by
  rw [← Nat.not_le]
  intro hle
  have heq := eq_of_isInfix h.isInfix hle
  rw [heq] at hlt
  exact Nat.lt_irrefl _ hlt

/-- A text that is not empty has a byte. -/
theorem byteLength_pos {t : Text} (h : t ≠ []) : 0 < t.byteLength :=
  byteLength_lt_of_isPrefix List.nil_prefix (List.length_pos_iff.mpr h)

/-- Of two texts that a text starts with, the one with fewer bytes starts the other. -/
theorem isPrefix_of_byteLength_le {s s' t : Text} (hs : s <+: t) (hs' : s' <+: t)
    (hle : s.byteLength ≤ s'.byteLength) : s <+: s' := by
  rcases List.prefix_or_prefix_of_prefix hs hs' with h | h
  · exact h
  · obtain rfl := eq_of_isInfix h.isInfix hle
    exact h

/-- Where the same number of bytes stands before two places, they are the same place. -/
theorem append_inj_of_byteLength_eq {s t s' t' : Text} (h : s ++ t = s' ++ t')
    (hlength : s.byteLength = s'.byteLength) : s = s' ∧ t = t' := by
  have hprefix : s <+: s' :=
    isPrefix_of_byteLength_le (List.prefix_append s t) (h ▸ List.prefix_append s' t')
      (Nat.le_of_eq hlength)
  obtain rfl := eq_of_isInfix hprefix.isInfix (Nat.le_of_eq hlength.symm)
  exact ⟨rfl, List.append_cancel_left h⟩

/-- Offsets increase with the columns, up to the end of the text. -/
theorem byteLength_take_lt_iff {t : Text} {i j : Nat} (h : i < t.length ∨ j ≤ t.length) :
    byteLength (t.take i) < byteLength (t.take j) ↔ i < j := by
  constructor
  · intro hlt
    rw [← Nat.not_le]
    intro hle
    have hprefix : t.take j <+: t.take i := List.take_prefix_take_left hle
    exact Nat.not_lt.mpr (byteLength_le_of_isPrefix hprefix) hlt
  · intro hlt
    apply byteLength_lt_of_isPrefix (List.take_prefix_take_left (Nat.le_of_lt hlt))
    rw [List.length_take, List.length_take]
    omega

/-! ### Cutting at an offset -/

/-- Whether an offset in bytes is one at which the text can be cut. -/
def IsBoundary (t : Text) (offset : Nat) : Prop :=
  ∃ before after, t = before ++ after ∧ before.byteLength = offset

end Text

end ExplicitInstantiation
