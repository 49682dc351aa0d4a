import SoftwareFactory.Adapters.Sanitizer
import SoftwareFactory.Lib.Redaction
import SoftwareFactory.Lib.RegexMatches

namespace SoftwareFactory.Sanitizer

open Regex Redaction

/-- `?key=` or `&key=` in front of the value of a parameter. -/
def urlForm : Form Char := ⟨urlKeyName.Takes,isUrlValueChar,1⟩

/-- The name of a header up to its value. -/
def headerForm : Form Char := ⟨headerStart.Takes,isHeaderValueChar,1⟩

/-- `Bearer` in front of a token of twelve characters or more. -/
def bearerForm : Form Char := ⟨bearerStart.Takes,isTokenChar,12⟩

section parts

variable {q key q' b b' q'' : List Char} {c : Char}

end parts

end SoftwareFactory.Sanitizer
