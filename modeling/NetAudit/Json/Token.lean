import NetAudit.Json.Literal

/-!
# JSON tokens

The tokens of a text: marks, strings and the values that hold no others. The list ends with the
text, or with the token at which the text breaks off.
-/

namespace NetAudit.Json

/-- A token of a JSON text. -/
inductive Token where
  | openArray
  | closeArray
  | openObject
  | closeObject
  | comma
  | colon
  /-- A word or a number. -/
  | scalar (d : Document)
  | string (s : Literal)
  /-- A string that breaks off. -/
  | brokenString (stop : Stop)
  /-- A word or number that breaks off, or a character with which nothing begins. -/
  | garbled (stop : Stop)

/-- The white space between tokens. -/
def isSpace (c : Char) : Bool := c == ' ' || c == '\n' || c == '\t' || c == '\r'

/-- A token that breaks the text off, and no text after it. -/
def garble (stop : Stop) : Token × List Char := (.garbled stop, [])

/-- The rest of a word that was begun. -/
def wordToken (d : Document) : List Char → List Char → Token × List Char
  | [], cs => (.scalar d, cs)
  | _ :: _, [] => garble (.same .endInValue)
  | w :: ws, c :: cs => if w = c then wordToken d ws cs else garble (.same .expectedWord)

/-- Where a number breaks off: it ends too early, or something else stands in place of a digit. A
number that is passed over does not tell the two apart. -/
def numberStop : List Char → Stop
  | [] => ⟨.endInValue, .badNumber⟩
  | _ :: _ => .same .badNumber

/-- The sign of an exponent, and what follows it. -/
def exponentSign : List Char → Bool × List Char
  | '-' :: cs => (true, cs)
  | '+' :: cs => (false, cs)
  | cs => (false, cs)

/-- The value of an exponent. -/
def exponentValue (negative : Bool) (ds : List Char) : Int :=
  if negative then -(Nat.ofDigitChars 10 ds 0 : Int) else Nat.ofDigitChars 10 ds 0

/-- The exponent of a number and what follows it. -/
def exponentToken (negative : Bool) (whole : List Char) (fraction : Option (List Char))
    (cs : List Char) : Token × List Char :=
  match cs with
  | [] => (.scalar (.number ⟨negative, whole, fraction, none⟩), [])
  | e :: rest =>
    if e = 'e' ∨ e = 'E' then
      let (minus, body) := exponentSign rest
      let ds := body.takeWhile Char.isDigit
      if ds.isEmpty then garble (numberStop body)
      else
        (.scalar (.number ⟨negative, whole, fraction, some (exponentValue minus ds)⟩),
          body.dropWhile Char.isDigit)
    else (.scalar (.number ⟨negative, whole, fraction, none⟩), cs)

/-- The fraction and the exponent of a number and what follows them. -/
def fractionToken (negative : Bool) (whole cs : List Char) : Token × List Char :=
  match cs with
  | '.' :: body =>
    let ds := body.takeWhile Char.isDigit
    if ds.isEmpty then garble (numberStop body)
    else exponentToken negative whole (some ds) (body.dropWhile Char.isDigit)
  | cs => exponentToken negative whole none cs

/-- A number without its sign, and what follows it. No digit may follow a zero in front. -/
def numberToken (negative : Bool) (cs : List Char) : Token × List Char :=
  match cs with
  | '0' :: rest =>
    if (rest.head?.map Char.isDigit).getD false then garble (.same .badNumber)
    else fractionToken negative ['0'] rest
  | cs =>
    let ds := cs.takeWhile Char.isDigit
    if ds.isEmpty then garble (numberStop cs)
    else fractionToken negative ds (cs.dropWhile Char.isDigit)

/-- A string from behind its opening quote, and what follows it. -/
def stringToken (cs : List Char) : Token × List Char :=
  let s := scanString cs
  if s.ending = .closed then (.string (literalOfUnits s.units), s.rest)
  else (.brokenString (stopOfUnits s.units s.ending), [])

/-- The token that begins with `c`, and what follows it. -/
def token (c : Char) (cs : List Char) : Token × List Char :=
  match c with
  | '[' => (.openArray, cs)
  | ']' => (.closeArray, cs)
  | '\x7b' => (.openObject, cs)
  | '\x7d' => (.closeObject, cs)
  | ',' => (.comma, cs)
  | ':' => (.colon, cs)
  | '"' => stringToken cs
  | 'n' => wordToken .null ['u', 'l', 'l'] cs
  | 't' => wordToken (.bool true) ['r', 'u', 'e'] cs
  | 'f' => wordToken (.bool false) ['a', 'l', 's', 'e'] cs
  | '-' => numberToken true cs
  | c => if c.isDigit then numberToken false (c :: cs) else garble (.same .expectedValue)

/-! ### Every token takes a character -/

theorem length_dropWhile_le (p : Char → Bool) (cs : List Char) :
    (cs.dropWhile p).length ≤ cs.length :=
  (List.dropWhile_suffix p).length_le

theorem length_wordToken_le (d : Document) (ws cs : List Char) :
    (wordToken d ws cs).2.length ≤ cs.length := by
  fun_induction wordToken d ws cs <;> simp_all [garble]
  omega

theorem length_exponentSign_le (cs : List Char) : (exponentSign cs).2.length ≤ cs.length := by
  unfold exponentSign
  split <;> simp

theorem length_exponentToken_le (negative : Bool) (whole : List Char)
    (fraction : Option (List Char)) (cs : List Char) :
    (exponentToken negative whole fraction cs).2.length ≤ cs.length := by
  unfold exponentToken
  split
  · simp
  · next e rest =>
    split
    · dsimp only
      split
      · simp [garble]
      · have h1 := length_dropWhile_le Char.isDigit (exponentSign rest).2
        have h2 := length_exponentSign_le rest
        simp only [List.length_cons]
        omega
    · simp

theorem length_fractionToken_le (negative : Bool) (whole cs : List Char) :
    (fractionToken negative whole cs).2.length ≤ cs.length := by
  unfold fractionToken
  split
  · next body =>
    dsimp only
    split
    · simp [garble]
    · have h1 := length_exponentToken_le negative whole (some (body.takeWhile Char.isDigit))
        (body.dropWhile Char.isDigit)
      have h2 := length_dropWhile_le Char.isDigit body
      simp only [List.length_cons]
      omega
  · exact length_exponentToken_le ..

theorem length_numberToken_lt (negative : Bool) (cs : List Char) (h : cs ≠ []) :
    (numberToken negative cs).2.length < cs.length := by
  unfold numberToken
  split
  · next rest =>
    split
    · simp [garble]
    · have := length_fractionToken_le negative ['0'] rest
      simp only [List.length_cons]
      omega
  · dsimp only
    split
    · simpa [garble] using List.length_pos_iff.2 h
    · next hd =>
      have h1 := length_fractionToken_le negative (cs.takeWhile Char.isDigit)
        (cs.dropWhile Char.isDigit)
      have h2 := congrArg List.length
        (List.takeWhile_append_dropWhile (p := Char.isDigit) (l := cs))
      have h3 : 0 < (cs.takeWhile Char.isDigit).length := by
        rw [List.length_pos_iff]
        simpa using hd
      rw [List.length_append] at h2
      omega

theorem length_numberToken_le (negative : Bool) (cs : List Char) :
    (numberToken negative cs).2.length ≤ cs.length := by
  cases cs with
  | nil => simp [numberToken, garble]
  | cons c cs => exact Nat.le_of_lt (length_numberToken_lt negative (c :: cs) (by simp))

theorem length_stringToken_le (cs : List Char) : (stringToken cs).2.length ≤ cs.length := by
  unfold stringToken
  have := length_rest_scanString_le cs
  dsimp only
  split
  · exact this
  · simp

/-- A token leaves no more text than what follows its first character. -/
theorem length_token_le (c : Char) (cs : List Char) : (token c cs).2.length ≤ cs.length := by
  unfold token
  split
  · exact Nat.le_refl _
  · exact Nat.le_refl _
  · exact Nat.le_refl _
  · exact Nat.le_refl _
  · exact Nat.le_refl _
  · exact Nat.le_refl _
  · exact length_stringToken_le _
  · exact length_wordToken_le ..
  · exact length_wordToken_le ..
  · exact length_wordToken_le ..
  · exact length_numberToken_le ..
  · split
    · exact Nat.le_of_lt_succ (length_numberToken_lt false _ (by simp))
    · simp [garble]

/-- The tokens of a text. -/
def tokens (cs : List Char) : List Token :=
  match cs with
  | [] => []
  | c :: cs =>
    if isSpace c then tokens cs
    else (token c cs).1 :: tokens (token c cs).2
termination_by cs.length
decreasing_by
  · simp
  · have := length_token_le c cs
    simp only [List.length_cons]
    omega

end NetAudit.Json
