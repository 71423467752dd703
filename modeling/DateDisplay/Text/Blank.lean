import DateDisplay.Text.Utf8

/-!
# White space

The white space that separates the words of a text is that of Unicode: the ASCII blanks with
the vertical tab, U+0085, U+00A0, U+1680, U+2000 to U+200A, U+2028, U+2029, U+202F, U+205F and
U+3000.  A stray byte is never white space.
-/

namespace DateDisplay

namespace Text

/-- The code point is white space. -/
def isBlankPoint (n : Nat) : Bool :=
  (9 ≤ n && n ≤ 13) || n == 0x20 || n == 0x85 || n == 0xA0 || n == 0x1680
    || (0x2000 ≤ n && n ≤ 0x200A) || n == 0x2028 || n == 0x2029 || n == 0x202F || n == 0x205F
    || n == 0x3000

/-- The number of bytes of the white space character at the front of a text, zero if there is
none. -/
def blankHead (s : Text) : Nat :=
  match decodeHead s with
  | some (.point p, n) => if isBlankPoint p then n else 0
  | _ => 0

/-- The words of a text whose first `skip` bytes belong to white space. -/
def fieldsFrom : Nat → Text → List Text
  | _, [] => []
  | skip + 1, _ :: t => fieldsFrom skip t
  | 0, b :: t =>
    match blankHead (b :: t) with
    | n + 1 => fieldsFrom n t
    | 0 =>
      -- the byte belongs to a word, which goes on unless white space follows
      if t.isEmpty || blankHead t != 0 then [b] :: fieldsFrom 0 t
      else
        match fieldsFrom 0 t with
        | [] => [[b]]
        | w :: ws => (b :: w) :: ws

/-- The words of a text: what is left between runs of white space. -/
def fields (s : Text) : List Text := fieldsFrom 0 s

/-- The text holds white space only. -/
def isBlank (s : Text) : Bool := (fields s).isEmpty

/-- The words of a text with one space between neighbours. -/
def collapse (s : Text) : Text := join [32] (fields s)

/-- The text without the white space at its front. -/
def trimStartFrom : Nat → Text → Text
  | _, [] => []
  | skip + 1, _ :: t => trimStartFrom skip t
  | 0, b :: t =>
    match blankHead (b :: t) with
    | n + 1 => trimStartFrom n t
    | 0 => b :: t

/-- The text up to the end of its last word. -/
def trimBlankEnd (s : Text) : Text :=
  match (charactersFrom 0 s).reverse.dropWhile
      (fun | .point n => isBlankPoint n | .stray _ => false) with
  | cs => cs.reverse.flatMap fun | .point n => encodePoint n | .stray b => [b]

/-- The text without the white space at either end. -/
def trimBlank (s : Text) : Text := trimBlankEnd (trimStartFrom 0 s)

end Text

end DateDisplay
