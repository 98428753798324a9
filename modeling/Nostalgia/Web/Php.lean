/-
  Nostalgia.Web.Php — the string functions of PHP the administration page uses.

  Strings are byte strings. The page runs on Windows, where `basename` takes both slashes
  for separators. It also cuts a drive prefix (`C:`) there, which is left out: the names
  of files hold no colon, and of a posted name it leaves a shorter one, for which the
  results hold as for any other. `preg_match` with `$` also accepts one newline behind
  the match. A RuntimeException is its message.
-/

import Mathlib

namespace Nostalgia.Web

abbrev Byte := UInt8

abbrev Bytes := List Byte

/-- An ASCII literal of the source. -/
def ascii (s : String) : Bytes := s.toList.map fun ch => UInt8.ofNat ch.toNat

/-- The UTF-8 bytes of a text. -/
def utf8 (s : String) : Bytes := s.toList.flatMap String.utf8EncodeChar

/-! ## Bytes -/

def isUpper (b : Byte) : Bool := 65 ≤ b.toNat && b.toNat ≤ 90

def isLower (b : Byte) : Bool := 97 ≤ b.toNat && b.toNat ≤ 122

def isDigit (b : Byte) : Bool := 48 ≤ b.toNat && b.toNat ≤ 57

/-- `/` and `\`. -/
def isSeparator (b : Byte) : Bool := b == 47 || b == 92

def DIRECTORY_SEPARATOR : Bytes := [92]

/-! ## Strings -/

/-- `basename`: without the separators at the end, what follows the last one left. -/
def basename (path : Bytes) : Bytes :=
  ((path.reverse.dropWhile isSeparator).takeWhile (!isSeparator ·)).reverse

/-- `pathinfo(…, PATHINFO_FILENAME)`: the basename up to its last dot. -/
def pathinfoFilename (path : Bytes) : Bytes :=
  if (basename path).contains 46 then (((basename path).reverse.dropWhile (· != 46)).drop 1).reverse
  else basename path

/-- What `trim` strips. -/
def isTrimmed (b : Byte) : Bool := b == 32 || b == 9 || b == 10 || b == 13 || b == 0 || b == 11

def trim (s : Bytes) : Bytes := ((s.dropWhile isTrimmed).reverse.dropWhile isTrimmed).reverse

def toUpper (b : Byte) : Byte := if isLower b then b - 32 else b

def strtoupper (s : Bytes) : Bytes := s.map toUpper

/-- `preg_match('/^[…]{lo,hi}$/', s)` for a class of bytes. -/
def pregMatchClass (inClass : Byte → Bool) (lo hi : Nat) (s : Bytes) : Bool :=
  let fits (t : Bytes) := t.all inClass && lo ≤ t.length && t.length ≤ hi
  fits s || (s.getLast? == some 10 && fits s.dropLast)

example : basename (ascii "..\\a/b.pdump/\\") = ascii "b.pdump" := by decide
example : pathinfoFilename (ascii "x.tar.gz") = ascii "x.tar" := by decide
example : pathinfoFilename (ascii ".htaccess") = [] := by decide

end Nostalgia.Web
