import ImProxy.Lexical.Buffer
import ImProxy.Lexical.Utf16

/-! # Texts of the client

A string of the client is a list of UTF-16 code units. It is written into a byte array as
UTF-8 and read back from one.
-/

set_option autoImplicit false

namespace ImProxy.Client

open Lexical

abbrev JsString := List UInt16

def lit (s : String) : JsString := s.toList.map fun c => .ofNat c.toNat

/-- What the client throws: an `Error` with a text, or what the language throws. -/
inductive Thrown
  | error (text : JsString)
  | rangeError
  | typeError
  deriving DecidableEq, Repr

/-! ### Error texts -/

def ERROR.malformedUtf : String := "AMQJS0009E Malformed UTF data:{0} {1} {2}."

def ERROR.malformedUnicode : String := "AMQJS0017E Malformed Unicode string:{0} {1}."

def indexOf (field : JsString) : JsString → Option ℕ
  | [] => if field = [] then some 0 else none
  | c :: cs => if field <+: c :: cs then some 0 else (indexOf field cs).map (· + 1)

/-- One round of the loop of `format`. A field at the front of the text stays. -/
def substitute (text : JsString) (i : ℕ) (substitution : JsString) : JsString :=
  let field := lit ("\x7b" ++ toString i ++ "\x7d")
  match indexOf field text with
  | some (start + 1) =>
    text.take (start + 1) ++ substitution ++ text.drop (start + 1 + field.length)
  | _ => text

def format (error : String) (substitutions : List JsString) : JsString :=
  substitutions.zipIdx.foldl (fun text s => substitute text s.2 s.1) (lit error)

/-- A number as text, in a base; there is no number for `NaN`. -/
def numberText (base : ℕ) : Option ℤ → JsString
  | none => lit "NaN"
  | some n => (if n < 0 then lit "-" else []) ++ lit (.ofList (Nat.toDigits base n.natAbs))

/-! ### Writing -/

def UTF8Length : JsString → ℕ
  | [] => 0
  | c :: cs =>
    if 0x7FF < c.toNat then
      -- a lead counts for itself and the unit behind it
      if 0xD800 ≤ c.toNat ∧ c.toNat ≤ 0xDBFF then
        match cs with
        | [] => 4
        | _ :: cs => UTF8Length cs + 4
      else UTF8Length cs + 3
    else if 0x7F < c.toNat then UTF8Length cs + 2
    else UTF8Length cs + 1

/-- The bytes that one round of `stringToUTF8` puts into the output. -/
def charBytes (charCode : ℕ) : List UInt8 :=
  if charCode ≤ 0x7F then [.ofNat charCode]
  else if charCode ≤ 0x7FF then
    [.ofNat (charCode >>> 6 &&& 0x1F ||| 0xC0),
      .ofNat (charCode &&& 0x3F ||| 0x80)]
  else if charCode ≤ 0xFFFF then
    [.ofNat (charCode >>> 12 &&& 0x0F ||| 0xE0),
      .ofNat (charCode >>> 6 &&& 0x3F ||| 0x80),
      .ofNat (charCode &&& 0x3F ||| 0x80)]
  else
    [.ofNat (charCode >>> 18 &&& 0x07 ||| 0xF0),
      .ofNat (charCode >>> 12 &&& 0x3F ||| 0x80),
      .ofNat (charCode >>> 6 &&& 0x3F ||| 0x80),
      .ofNat (charCode &&& 0x3F ||| 0x80)]

/-- The number of a lead and whatever unit follows it. The subtraction comes last, so that
it stays a natural number. -/
def leadCode (charCode lowCharCode : UInt16) : ℕ :=
  (charCode.toNat - 0xD800) <<< 10 + 0x10000 + lowCharCode.toNat - 0xDC00

/-- `stringToUTF8` from a position of the output on. -/
def stringToUTF8 : JsString → List UInt8 → ℕ → Except Thrown (List UInt8)
  | [], output, _ => .ok output
  | c :: cs, output, pos =>
    if 0xD800 ≤ c.toNat ∧ c.toNat ≤ 0xDBFF then
      match cs with
      | [] => .error (.error (format ERROR.malformedUnicode
          [numberText 10 (some c.toNat), numberText 10 none]))
      | low :: cs =>
        stringToUTF8 cs (Buffer.write output pos (charBytes (leadCode c low)))
          (pos + (charBytes (leadCode c low)).length)
    else
      stringToUTF8 cs (Buffer.write output pos (charBytes c.toNat))
        (pos + (charBytes c.toNat).length)

/-! ### Reading -/

/-- `input[pos++] - 128`, which is `NaN` behind the end of the input. -/
def tailByte (b : Option UInt8) : Option ℤ := b.map fun b => (b.toNat : ℤ) - 128

def malformedUtf (bytes : List (Option ℤ)) (texts : List JsString) : Thrown :=
  .error (format ERROR.malformedUtf (bytes.map (numberText 16) ++ texts))

/-- The number of the character at the front of the input, and how many bytes it takes
behind the first one. -/
def parseChar (input : List UInt8) : Except Thrown (Option ℤ × ℕ) :=
  match input[0]? with
  -- a comparison with `undefined` fails, and at last it has no `toString`
  | none => .error .typeError
  | some b =>
    let byte1 : ℤ := b.toNat
    if byte1 < 128 then .ok (some byte1, 0)
    else
      let byte2 := tailByte input[1]?
      if byte2.any (· < 0) then .error (malformedUtf [byte1, byte2] [[]])
      else if byte1 < 0xE0 then
        .ok (do return 64 * (byte1 - 0xC0) + (← byte2), 1)
      else
        let byte3 := tailByte input[2]?
        if byte3.any (· < 0) then .error (malformedUtf [byte1, byte2, byte3] [])
        else if byte1 < 0xF0 then
          .ok (do return 4096 * (byte1 - 0xE0) + 64 * (← byte2) + (← byte3), 2)
        else
          let byte4 := tailByte input[3]?
          if byte4.any (· < 0) then .error (malformedUtf [byte1, byte2, byte3, byte4] [])
          else if byte1 < 0xF8 then
            .ok (do return 262144 * (byte1 - 0xF0) + 4096 * (← byte2) + 64 * (← byte3) +
              (← byte4), 3)
          else .error (malformedUtf [byte1, byte2, byte3, byte4] [])

/-- `String.fromCharCode` of a number, or of the pair that expresses it. -/
def fromCharCode : Option ℤ → JsString
  | none => [0]
  | some utf16 =>
    if 0xFFFF < utf16 then
      let utf16 := utf16.toNat - 0x10000
      [.ofNat (0xD800 + (utf16 >>> 10)), .ofNat (0xDC00 + (utf16 &&& 0x3FF))]
    else [.ofInt utf16]

/-- The loop of `parseUTF8` where so many bytes belong to the last character and so many
are left to the end. -/
def parseUTF8From : ℕ → List UInt8 → ℕ → Except Thrown JsString
  | _, _, 0 => .ok []
  | k + 1, input, n + 1 => parseUTF8From k input.tail n
  | 0, input, n + 1 => do
    let (utf16, k) ← parseChar input
    return fromCharCode utf16 ++ (← parseUTF8From k input.tail n)

def parseUTF8 (input : List UInt8) (offset length : ℕ) : Except Thrown JsString :=
  parseUTF8From 0 (input.drop offset) length

end ImProxy.Client
