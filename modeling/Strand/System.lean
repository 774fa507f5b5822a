/-! What the system underneath hands over: texts that are bytes, and failures. -/
namespace Strand

/-- A text of the system, such as a path. It need not be UTF-8. -/
abbrev Bytes := List UInt8

namespace Bytes

def text? (bs : Bytes) : Option String := String.fromUTF8? ⟨bs.toArray⟩

def isContinuation (b : UInt8) : Bool := 0x80 ≤ b && b ≤ 0xbf

/-- Whether a character of several bytes can begin with these two. -/
def mayBegin (first second : UInt8) : Bool :=
  if first = 0xe0 then 0xa0 ≤ second && second ≤ 0xbf
  else if first = 0xed then 0x80 ≤ second && second ≤ 0x9f
  else if first = 0xf0 then 0x90 ≤ second && second ≤ 0xbf
  else if first = 0xf4 then 0x80 ≤ second && second ≤ 0x8f
  else 0xc2 ≤ first && first ≤ 0xf3 && isContinuation second

/-- How many bytes in front belong together, although no character comes of them. -/
def stump : Bytes → Nat
  | first :: second :: rest =>
    if mayBegin first second then
      if 0xf0 ≤ first ∧ rest.head?.any isContinuation then 3 else 2
    else 1
  | _ => 1

/-- The characters after the first `skip` bytes, with a replacement sign for every stump. -/
def decodeFrom : Nat → Bytes → List Char
  | _, [] => []
  | skip + 1, _ :: rest => decodeFrom skip rest
  | 0, first :: rest =>
    match ByteArray.utf8DecodeChar? ⟨((first :: rest).take 4).toArray⟩ 0 with
    | some c => c :: decodeFrom (c.utf8Size - 1) rest
    | none => Char.ofNat 0xfffd :: decodeFrom (stump (first :: rest) - 1) rest

def display (bs : Bytes) : String := bs.text?.getD (String.ofList (decodeFrom 0 bs))

end Bytes

inductive SystemError
  | isDirectory
  | notUtf8
  | tryAgain
  | invalidArgument
  | other (text : String)
  deriving DecidableEq, Repr

def SystemError.message : SystemError → String
  | .isDirectory => "Is a directory (os error 21)"
  | .notUtf8 => "stream did not contain valid UTF-8"
  | .tryAgain => "Resource temporarily unavailable (os error 11)"
  | .invalidArgument => "Invalid argument (os error 22)"
  | .other text => text

end Strand
