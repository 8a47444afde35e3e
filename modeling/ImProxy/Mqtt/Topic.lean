import Mathlib.Data.List.DropRight

/-! # Topics

A topic is parsed lazily into one token per level. Parsing fails where a
wildcard shares a level with other characters or where the multi-level wildcard
is not the last level, and validity is what the last parse left behind.
-/

set_option autoImplicit false

namespace ImProxy

/-- A token: one of the three shared objects, or one made for a level of its own. -/
inductive Token | empty | multi | single | named (name : String)
  deriving DecidableEq, Repr

def Token.name : Token → String
  | .empty => ""
  | .multi => "#"
  | .single => "+"
  | .named s => s

/-- Tokens are equal if their names are; the matcher asks for the identity of two of them. -/
def Token.equals (t u : Token) : Bool := t.name == u.name

structure ParseException where
  message : String
  errorOffset : ℕ
  deriving DecidableEq, Repr

/-- A topic with its cached parse. -/
structure Topic where
  topic : String
  tokens : Option (List Token) := none
  valid : Bool := false
  deriving DecidableEq, Repr

namespace Topic

/-- `String.split("/")`: the levels without trailing empty ones, and the whole string where
no separator occurs. -/
def split (s : List Char) : List (List Char) :=
  if '/' ∈ s then (s.splitOn '/').rdropWhile List.isEmpty else [s]

def invalidSubtopic (s : List Char) (i : ℕ) : ParseException :=
  ⟨"Bad format of topic, invalid subtopic name: " ++ String.ofList s, i⟩

def multiNotLast (i : ℕ) : ParseException :=
  ⟨"Bad format of topic, the multi symbol (#) has to be the last one after a separator", i⟩

/-- The token of the level at index `i` out of `length`. -/
def parseLevel (length i : ℕ) (s : List Char) : Except ParseException Token :=
  if s.isEmpty then .ok .empty
  else if s = ['#'] then
    if i + 1 ≠ length then .error (multiNotLast i) else .ok .multi
  else if '#' ∈ s then .error (invalidSubtopic s i)
  else if s = ['+'] then .ok .single
  else if '+' ∈ s then .error (invalidSubtopic s i)
  else .ok (.named (String.ofList s))

def parseLevels (length : ℕ) : ℕ → List (List Char) → Except ParseException (List Token)
  | _, [] => .ok []
  | i, s :: rest => do
    let t ← parseLevel length i s
    let ts ← parseLevels length (i + 1) rest
    return t :: ts

def parseTopic (topic : String) : Except ParseException (List Token) := do
  let s := topic.toList
  let splitted := split s
  let res := if splitted.length = 0 then [Token.empty] else []
  -- a trailing separator gets its empty level back
  let splitted := if s.getLast? = some '/' then splitted ++ [[]] else splitted
  let ts ← parseLevels splitted.length 0 splitted
  return res ++ ts

def getTokens (t : Topic) : Topic :=
  if t.tokens = none then
    match parseTopic t.topic with
    | .ok ts => { t with tokens := some ts, valid := true }
    | .error _ => { t with valid := false }
  else t

/-- The answer, and the topic with what the call cached. -/
def isValid (t : Topic) : Bool × Topic :=
  let t := if t.tokens = none then t.getTokens else t
  (t.valid, t)

/-- The loop over the tokens of the subscription from index `i` on, `none` where it
dereferences the list that an unparsable message topic does not have. -/
def matchLoop (msgTokens : Option (List Token)) : ℕ → List Token → Option Bool
  | i, [] => msgTokens.map fun ts => i == ts.length
  | i, subToken :: rest =>
    if subToken ≠ .multi ∧ subToken ≠ .single then
      msgTokens.bind fun ts =>
        match ts[i]? with
        | none => some false
        | some msgToken =>
          if msgToken.equals subToken then matchLoop msgTokens (i + 1) rest else some false
    else if subToken = .multi then some true
    else matchLoop msgTokens (i + 1) rest

/-- The answer of `match`, `none` for a `NullPointerException`, and both topics with what the
call cached. -/
def matchTopic (t subscriptionTopic : Topic) : Option Bool × Topic × Topic :=
  let t := t.getTokens
  let subscriptionTopic := subscriptionTopic.getTokens
  (subscriptionTopic.tokens.bind (matchLoop t.tokens 0), t, subscriptionTopic)

def asTopic (s : String) : Topic := { topic := s }

end Topic

end ImProxy
