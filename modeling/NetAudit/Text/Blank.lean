/-!
# Blank characters and trimming

The white space of Unicode (its property `White_Space`), and what is left of a text without the
white space at its ends.
-/

namespace NetAudit.Text

/-- The white space of Unicode: twenty-five characters. -/
def isBlank (c : Char) : Bool :=
  let n := c.toNat
  (0x9 ≤ n && n ≤ 0xD) || n == 0x20 || n == 0x85 || n == 0xA0 || n == 0x1680 ||
    (0x2000 ≤ n && n ≤ 0x200A) || n == 0x2028 || n == 0x2029 || n == 0x202F || n == 0x205F ||
    n == 0x3000

/-- A text without the white space at its end. -/
def trimRight (cs : List Char) : List Char := (cs.reverse.dropWhile isBlank).reverse

/-- A text without the white space at its beginning. -/
def trimLeft (cs : List Char) : List Char := cs.dropWhile isBlank

/-- A text without the white space at its ends. -/
def trim (cs : List Char) : List Char := trimRight (trimLeft cs)

/-- Is there nothing but white space in the text? -/
def isBlankText (s : String) : Bool := (trim s.toList).isEmpty

theorem isBlank_of_isDigit {c : Char} (h : c.isDigit = true) : isBlank c = false := by
  have hbounds : 48 ≤ c.toNat ∧ c.toNat ≤ 57 := by
    simpa [Char.isDigit, UInt32.le_iff_toNat_le] using h
  simp only [isBlank, Bool.or_eq_false_iff, Bool.and_eq_false_iff, decide_eq_false_iff_not,
    beq_eq_false_iff_ne]
  omega

/-! ### What trimming leaves -/

/-- Where dropping stops, the test fails. -/
theorem head_dropWhile {p : α → Bool} :
    ∀ {l : List α} {a r}, l.dropWhile p = a :: r → p a = false
  | [], _, _, h => by simp at h
  | b :: l, a, r, h => by
    rw [List.dropWhile_cons] at h
    split at h
    · exact head_dropWhile h
    · next hb => cases h; simpa using hb

/-- Dropping twice is dropping once. -/
theorem dropWhile_dropWhile (p : α → Bool) (l : List α) :
    (l.dropWhile p).dropWhile p = l.dropWhile p := by
  cases h : l.dropWhile p with
  | nil => rfl
  | cons a r => rw [List.dropWhile_cons]; simp [head_dropWhile h]

theorem trimRight_idem (cs : List Char) : trimRight (trimRight cs) = trimRight cs := by
  simp [trimRight, dropWhile_dropWhile]

/-- Nothing is taken off a text without white space at its ends. -/
theorem trim_eq_self {cs : List Char} (hhead : ∀ c ∈ cs.head?, isBlank c = false)
    (hlast : ∀ c ∈ cs.getLast?, isBlank c = false) : trim cs = cs := by
  have hstay : ∀ {ds : List Char}, (∀ c ∈ ds.head?, isBlank c = false) →
      ds.dropWhile isBlank = ds := by
    intro ds hds
    cases ds with
    | nil => rfl
    | cons c ds =>
      rw [List.dropWhile_cons, if_neg]
      rw [hds c rfl]
      exact Bool.false_ne_true
  rw [List.getLast?_eq_head?_reverse] at hlast
  rw [trim, trimLeft, hstay hhead, trimRight, hstay hlast, List.reverse_reverse]

end NetAudit.Text
