import JsonCompanion.Text.Basic

/-!
# Quoted text

`Text.quote` writes a text between double quotes as JSON does: quotes, backslashes, controls and
lone surrogates are escaped, all other units stand for themselves.
-/

namespace JsonCompanion

namespace Text

/-- A unit as a backslash, `u` and four small hexadecimal digits. -/
def hexEscape (u : CodeUnit) : Text :=
  let digits := Nat.toDigits 16 u.toNat
  "\\u" ++ (List.replicate (4 - digits.length) '0' ++ digits).map CodeUnit.ofChar

/-- A unit between quotes, where it stands alone. -/
def escape (u : CodeUnit) : Text :=
  if u == '"' then "\\\""
  else if u == '\\' then "\\\\"
  else if u == 0x08 then "\\b"
  else if u == 0x0C then "\\f"
  else if u == 0x0A then "\\n"
  else if u == 0x0D then "\\r"
  else if u == 0x09 then "\\t"
  else if u.toNat < 0x20 then hexEscape u
  else if u.isLeading || u.isTrailing then hexEscape u
  else [u]

/-- The units between quotes; a surrogate pair stands for itself. -/
def escapeAll : Text → Text
  | [] => []
  | [u] => escape u
  | u :: v :: r =>
    if u.isLeading && v.isTrailing then u :: v :: escapeAll r else escape u ++ escapeAll (v :: r)

/-- A text as a quoted JSON string. -/
def quote (t : Text) : Text := "\"" ++ escapeAll t ++ "\""

end Text

end JsonCompanion
