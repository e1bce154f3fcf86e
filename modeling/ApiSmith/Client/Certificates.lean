import ApiSmith.Text.Cut
import ApiSmith.Text.Lowercase

/-!
# Pinned certificates

A directory pins the certificates in its files with a certificate suffix. A file may hold several
certificates, each between a line that begins it and one that ends it, and text around them. The
same certificate counts once, wherever it stands.
-/

namespace ApiSmith.Certificates

open Text

def suffixes : List (List Char) := [".cer", ".crt", ".pem"].map String.toList

/-- The suffix of a file name, with its dot. A dot at either end begins no suffix. -/
def suffix (name : List Char) : List Char :=
  match afterLast? '.' name with
  | some (c :: rest) => if (c :: rest).length + 1 < name.length then '.' :: c :: rest else []
  | _ => []

def isNamedAsOne (name : String) : Bool := suffixes.contains (lower (suffix name.toList))

/-- The contents of the certificates in a text, without blanks. A certificate that does not end is
none. -/
def blocks : Nat → List Char → List (List Char)
  | 0, _ => []
  | count + 1, cs =>
    match cutAt "-----BEGIN CERTIFICATE-----".toList cs with
    | none => []
    | some (_, rest) =>
      match cutAt "-----END CERTIFICATE-----".toList rest with
      | none => []
      | some (block, rest) => block.filter (!isBlank ·) :: blocks count rest

/-- The certificates that the files of a directory pin, none if no file is named as one. -/
def pinned? (files : List (String × String)) : Option (List (List Char)) :=
  let chosen := files.filter fun f => isNamedAsOne f.1
  if chosen.isEmpty then none
  else some (chosen.flatMap fun f => blocks f.2.length f.2.toList).eraseDups

def missingText (directory : String) : String := "No certificates found in " ++ directory

end ApiSmith.Certificates
