import Reckoner.Text.Hexadecimal
import Reckoner.Text.Line
/-!
Paths of addresses.

A path ends before a query or a fragment. Its dot segments are resolved and characters written by their
codes in hexadecimal digits are decoded; this is done on the side of the client and again on that of
the server, so a code may be written in codes itself.
-/

namespace Reckoner.Http

namespace Path

/-- A path without its query and its fragment. -/
def withoutQuery (cs : List Char) : List Char := cs.takeWhile fun c => c ≠ '?' ∧ c ≠ '#'

/-- Segments with those that are one dot left out and those that are two dots taking back the one
before them. -/
def resolveDots (segments : List (List Char)) : List (List Char) :=
  segments.foldl
    (fun done s =>
      if s = ['.'] then done
      else if s = ['.', '.'] then done.dropLast
      else done ++ [s]) []

/-- Bytes with each percent sign and two hexadecimal digits replaced by the byte they denote. -/
def decodeBytes : List UInt8 → List UInt8
  | [] => []
  | b :: bs =>
    if b = 37 then
      match bs with
      | x :: y :: rest =>
        match Text.hexNumber? [Char.ofNat x.toNat, Char.ofNat y.toNat] with
        | some n => UInt8.ofNat n :: decodeBytes rest
        | none => b :: decodeBytes (x :: y :: rest)
      | rest => b :: decodeBytes rest
    else b :: decodeBytes bs
termination_by bs => bs.length

/-- The text of bytes; where they are no text, every byte beyond ASCII is a replacement character. -/
def textOfBytes (bs : List UInt8) : List Char :=
  match String.fromUTF8? ⟨bs.toArray⟩ with
  | some s => s.toList
  | none => bs.map fun b => if b.toNat < 128 then Char.ofNat b.toNat else '\uFFFD'

/-- A text with characters written by their codes decoded. -/
def decode (cs : List Char) : List Char :=
  textOfBytes (decodeBytes (String.ofList cs).toUTF8.toList)

/-- The segments of a path between its slashes, decoded. The slash at its beginning may be missing. -/
def segments (path : String) : List (List Char) :=
  let rest := match withoutQuery path.toList with
    | '/' :: cs => cs
    | cs => cs
  let plain := resolveDots (Text.split (· == '/') rest)
  Text.split (· == '/') (decode (decode (List.intercalate ['/'] plain)))

end Path

end Reckoner.Http
