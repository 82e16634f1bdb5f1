import Pooler.Lib.Text
import Pooler.Spec.Core

/-! Texts as lists of characters. -/

namespace Pooler

open Lib

abbrev Text := List Char

variable (value : Text)

def trim : Text := trimBy isWhitespace value

def lowercase : Text := value.map Char.toLower

def uppercase : Text := value.map Char.toUpper

def utf8 (value : String) : List UInt8 := value.toByteArray.data.toList

end Pooler
