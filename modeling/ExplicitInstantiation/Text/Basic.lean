/-!
# Text

Source text, names, paths and generated text are all lists of characters. Nothing in this library
addresses text by index: an operation that would cut at an offset returns the two pieces instead,
and an offset that has to be reported is the length in bytes of the piece before it.

`Text.byteLength` measures a text in UTF-8 bytes, which is the length by which names are compared
and positions are reported.
-/

namespace ExplicitInstantiation

/-- A text, as the list of its characters. -/
abbrev Text := List Char

namespace Text

/-- The length in bytes of the UTF-8 encoding. -/
def byteLength (t : Text) : Nat :=
  t.foldr (fun c length => c.utf8Size + length) 0

/-- The empty text has no byte. -/
@[simp] theorem byteLength_nil : byteLength [] = 0 := rfl

/-- The bytes of the first character are added to those behind it. -/
@[simp] theorem byteLength_cons (c : Char) (rest : Text) :
    byteLength (c :: rest) = c.utf8Size + byteLength rest := rfl

/-- The bytes of two texts in a row are added up. -/
@[simp] theorem byteLength_append (s t : Text) :
    byteLength (s ++ t) = byteLength s + byteLength t := by
  induction s with
  | nil => rw [List.nil_append, byteLength_nil, Nat.zero_add]
  | cons c rest ih => rw [List.cons_append, byteLength_cons, ih, byteLength_cons, Nat.add_assoc]

/-- What stands before and after an offset in bytes, if the text can be cut there. -/
def cutAtByte? : (t : Text) → (offset : Nat) → Option (Text × Text)
  | t, 0 => some ([], t)
  | [], _ + 1 => none
  | c :: rest, offset + 1 =>
    if c.utf8Size ≤ offset + 1 then
      (cutAtByte? rest (offset + 1 - c.utf8Size)).map fun (before, after) => (c :: before, after)
    else none

/-- A text is cut at the length of what stands before the place. -/
@[simp] theorem cutAtByte?_append (before after : Text) :
    cutAtByte? (before ++ after) before.byteLength = some (before, after) := by
  induction before with
  | nil => rw [byteLength_nil, List.nil_append, cutAtByte?]
  | cons c before ih =>
    obtain ⟨size, hsize⟩ := Nat.exists_eq_succ_of_ne_zero (Nat.ne_of_gt c.utf8Size_pos)
    have hcut : byteLength (c :: before) = size + byteLength before + 1 := by
      rw [byteLength_cons, hsize]
      omega
    have hrest : size + byteLength before + 1 - c.utf8Size = byteLength before := by omega
    rw [hcut, List.cons_append, cutAtByte?, if_pos (by omega), hrest, ih]
    rfl

/-- The order by length, the longest first, is transitive. -/
theorem longer_trans (a b c : Text) (hab : decide (b.byteLength ≤ a.byteLength) = true)
    (hbc : decide (c.byteLength ≤ b.byteLength) = true) :
    decide (c.byteLength ≤ a.byteLength) = true := by
  simp only [decide_eq_true_eq] at *
  omega

/-- The order by length, the longest first, is total. -/
theorem longer_total (a b : Text) :
    (decide (b.byteLength ≤ a.byteLength) || decide (a.byteLength ≤ b.byteLength)) = true := by
  simp only [Bool.or_eq_true, decide_eq_true_eq]
  omega

/-- The text with `separator` between each two neighbours. -/
def join (separator : Text) (parts : List Text) : Text :=
  separator.intercalate parts

/-- No parts make an empty text. -/
@[simp] theorem join_nil (separator : Text) : join separator [] = [] :=
  List.intercalate_nil

/-- One part needs no separator. -/
@[simp] theorem join_singleton (separator part : Text) : join separator [part] = part :=
  List.intercalate_singleton

/-- Between the first part and the others stands a separator. -/
theorem join_cons_of_ne_nil (separator part : Text) {parts : List Text} (h : parts ≠ []) :
    join separator (part :: parts) = part ++ (separator ++ join separator parts) := by
  unfold join
  rw [List.intercalate_cons_of_ne_nil h, List.append_assoc]

/-- The text without the longest run of characters at its end that satisfy `p`. -/
def dropEndWhile (p : Char → Bool) (t : Text) : Text :=
  (t.reverse.dropWhile p).reverse

/-- The decimal digits of a natural number. -/
def ofNat (n : Nat) : Text :=
  Nat.toDigits 10 n

/-- A natural number has a digit. -/
theorem ofNat_ne_nil (n : Nat) : ofNat n ≠ [] :=
  Nat.toDigits_ne_nil

/-- The decimal form of a natural number consists of digits. -/
theorem isDigit_ofNat (n : Nat) : ∀ c ∈ ofNat n, c.isDigit = true := fun _ hc =>
  Nat.isDigit_of_mem_toDigits (by decide) (by decide) hc

/-- The decimal digits of a natural number are read back as the number. -/
theorem ofDigitChars_ofNat (n : Nat) : Nat.ofDigitChars 10 (ofNat n) 0 = n :=
  Nat.ofDigitChars_toDigits (by decide) (by decide)

/-- The decimal form of an integer, with a minus sign when it is negative. -/
def ofInt : Int → Text
  | .ofNat n => ofNat n
  | .negSucc n => '-' :: ofNat (n + 1)

/-! ### Lines -/

/-- The lines of a text, each with the newline that ends it; the last one may have none. A text
that ends in a newline has no further, empty line, and the empty text has no line. -/
def fullLines : Text → List Text
  | [] => []
  | c :: rest =>
    if c = '\n' then [c] :: fullLines rest
    else
      match fullLines rest with
      | [] => [[c]]
      | line :: lines => (c :: line) :: lines

/-- Nothing is lost when a text is cut into lines. -/
theorem flatten_fullLines (t : Text) : (fullLines t).flatten = t := by
  induction t with
  | nil => rfl
  | cons c rest ih =>
    rw [fullLines]
    split
    · simp [ih]
    · split <;> simp_all

/-! ### Order -/

/-- Comparison by code points, which on valid text is also the order of the UTF-8 bytes. -/
def compare : Text → Text → Ordering
  | [], [] => .eq
  | [], _ :: _ => .lt
  | _ :: _, [] => .gt
  | c :: s, d :: t => (Ord.compare c.toNat d.toNat).then (compare s t)

end Text

end ExplicitInstantiation
