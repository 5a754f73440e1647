import LanguageServer.Text.Alphabetic
import LanguageServer.Text.Numeric

namespace LanguageServer.Text

def isAlphanumeric (c : Char) : Bool := isAlphabetic c || isNumeric c

end LanguageServer.Text
