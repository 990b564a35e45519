/-!
# Words that may be written in either case

Names of formats and colour modes are compared in lower case. Only one character outside ASCII has
an ASCII letter as its lower case, the Kelvin sign; every other one stays outside ASCII, so it
matches no keyword whatever it is lowered to.
-/

set_option autoImplicit false

namespace Tenancy.Text

/-- The lower case of a character, as far as an ASCII letter can come out of it. -/
def lowerChar (c : Char) : Char := if c.toNat == 0x212A then 'k' else c.toLower

/-- Whether a text is a given lower-case ASCII word, written in any case. -/
def isKeyword (word text : String) : Bool := text.toList.map lowerChar == word.toList

end Tenancy.Text
