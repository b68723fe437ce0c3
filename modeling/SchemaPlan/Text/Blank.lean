/-!
# Blank characters

Blank characters are the ones Unicode calls `White_Space`.  Type names, expressions, function
bodies and file headers are cut and compared up to them:

* `trim` removes them at both ends,
* `words` lists the maximal runs of other characters,
* `collapse` joins those runs with single spaces.
-/

set_option autoImplicit false

namespace SchemaPlan.Text

/-- Whether a character has the Unicode property `White_Space`. -/
def isBlank (c : Char) : Bool :=
  let n := c.toNat
  (9 ≤ n && n ≤ 13) || n == 0x20 || n == 0x85 || n == 0xA0 || n == 0x1680 ||
    (0x2000 ≤ n && n ≤ 0x200A) || n == 0x2028 || n == 0x2029 || n == 0x202F ||
    n == 0x205F || n == 0x3000

/-- Drops the blanks at the start. -/
def trimStart (s : List Char) : List Char :=
  s.dropWhile isBlank

/-- Drops the blanks at the end. -/
def trimEnd (s : List Char) : List Char :=
  (s.reverse.dropWhile isBlank).reverse

/-- Drops the blanks at both ends. -/
def trim (s : List Char) : List Char :=
  trimEnd (trimStart s)

/-- Puts a character that is not blank before the words of what follows it: it opens a word of
its own when the next character is blank or missing. -/
def extendWords (c : Char) (next : Option Char) (rest : List (List Char)) : List (List Char) :=
  match next, rest with
  | some d, w :: ws => if isBlank d then [c] :: w :: ws else (c :: w) :: ws
  | _, ws => [c] :: ws

/-- The maximal runs of characters that are not blank, in order. -/
def words : List Char → List (List Char)
  | [] => []
  | c :: r => if isBlank c then words r else extendWords c r.head? (words r)

/-- Every run of blanks becomes one space; none is left at the ends. -/
def collapse (s : List Char) : List Char :=
  [' '].intercalate (words s)

/-- `trim` on a string. -/
def trimmed (s : String) : String :=
  String.ofList (trim s.toList)

theorem length_dropWhile_le {α : Type} (p : α → Bool) (s : List α) :
    (s.dropWhile p).length ≤ s.length :=
  (List.dropWhile_sublist p).length_le

theorem length_trim_le (s : List Char) : (trim s).length ≤ s.length := by
  have h1 := length_dropWhile_le isBlank s
  have h2 := length_dropWhile_le isBlank (s.dropWhile isBlank).reverse
  simp only [trim, trimEnd, trimStart, List.length_reverse] at *
  omega

theorem isBlank_space : isBlank ' ' = true := by decide

theorem words_cons_blank {c : Char} (h : isBlank c = true) (r : List Char) :
    words (c :: r) = words r := by
  simp [words, h]

theorem ne_nil_of_mem_extendWords {c : Char} {next : Option Char} {ws : List (List Char)}
    (h : ∀ w ∈ ws, w ≠ []) : ∀ w ∈ extendWords c next ws, w ≠ [] := by
  unfold extendWords
  split
  · split <;> simp_all
  · simp_all

/-- A word is never empty. -/
theorem ne_nil_of_mem_words {s : List Char} : ∀ w ∈ words s, w ≠ [] := by
  induction s with
  | nil => simp [words]
  | cons c r ih =>
    rw [words]
    split
    · exact ih
    · exact ne_nil_of_mem_extendWords ih

end SchemaPlan.Text
