import BuildMender.Text.Class
import BuildMender.Text.Utf8

/-!
# Raw text

What processes read and write, the words they are called with and the names they use are bytes, and
nothing promises that the bytes are text. Raw text is a list of characters each of which stands for
one byte, so that everything known about text can be used for it. ASCII text is its own raw text.

The classes at the end are those that patterns may name. They know ASCII only.
-/

namespace BuildMender.Host

/-- Text each of whose characters stands for a byte. -/
abbrev Raw := Text

namespace Raw

/-- The character that stands for a byte. -/
def ofByte (b : UInt8) : Char := Char.ofNat b.toNat

/-- The raw text of some bytes. -/
def ofBytes (b : ByteArray) : Raw := b.toList.map ofByte

/-- The bytes of a raw text. -/
def toBytes (r : Raw) : ByteArray := ⟨(r.map fun c => c.toNat.toUInt8).toArray⟩

/-- The raw text of a text. -/
def ofText (t : Text) : Raw := if t.all fun c => c.toNat < 128 then t else ofBytes (Text.toBytes t)

/-- The text of a raw text, with replacement characters for bytes that are none. -/
def toText (r : Raw) : Text := if r.all fun c => c.toNat < 128 then r else Text.ofBytes (toBytes r)

/-! ### Characters -/

/-- The letters of ASCII. -/
def isLetter (c : Char) : Bool := Text.isAsciiLetter c

/-- The digits of ASCII. -/
def isDigit (c : Char) : Bool := Text.isAsciiDigit c

/-- The characters a name begins with. -/
def isNameStart (c : Char) : Bool := isLetter c || c = '_'

/-- The characters a name is made of. -/
def isNameChar (c : Char) : Bool := isNameStart c || isDigit c

/-- The blanks of ASCII. -/
def isSpace (c : Char) : Bool := c = ' ' || (9 ≤ c.toNat && c.toNat ≤ 13)

/-- The characters that show something. -/
def isGraphic (c : Char) : Bool := 0x21 ≤ c.toNat && c.toNat ≤ 0x7e

/-- The small letters. -/
def isSmall (c : Char) : Bool := 'a' ≤ c && c ≤ 'z'

/-- The capital letters. -/
def isCapital (c : Char) : Bool := 'A' ≤ c && c ≤ 'Z'

/-- The small letter of a capital; other characters stay. -/
def small (c : Char) : Char := if isCapital c then Char.ofNat (c.toNat + 32) else c

/-- The capital of a small letter; other characters stay. -/
def capital (c : Char) : Char := if isSmall c then Char.ofNat (c.toNat - 32) else c

/-- Whether a raw text is a name: a letter or an underscore, then those and digits. -/
def isName : Raw → Bool
  | [] => false
  | c :: cs => isNameStart c && cs.all isNameChar

/-- The classes that patterns may name. -/
def classes : List (Text × (Char → Bool)) :=
  [("alnum", fun c => isLetter c || isDigit c), ("alpha", isLetter),
    ("blank", fun c => c = ' ' || c = '\t'), ("cntrl", fun c => c.toNat < 32 || c.toNat = 127),
    ("digit", isDigit), ("graph", isGraphic), ("lower", isSmall),
    ("print", fun c => c = ' ' || isGraphic c),
    ("punct", fun c => isGraphic c && !(isLetter c || isDigit c)), ("space", isSpace),
    ("upper", isCapital), ("xdigit", fun c => isDigit c || ('a' ≤ small c && small c ≤ 'f'))]

/-- The class of a name. -/
def class? (name : Raw) : Option (Char → Bool) := classes.lookup name

/-- Whether one raw text comes before another in the order of their bytes. -/
def before : Raw → Raw → Bool
  | [], [] => false
  | [], _ :: _ => true
  | _ :: _, [] => false
  | a :: as, b :: bs => a < b || (a = b && before as bs)

/-- Raw texts in the order of their bytes. -/
def sorted (rs : List Raw) : List Raw := rs.mergeSort fun a b => !before b a

end Raw

end BuildMender.Host
