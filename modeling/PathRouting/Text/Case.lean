import PathRouting.Text.CaseMap

/-!
# Upper and lower case

Full case mapping: a character may become several, and a capital sigma at the end of a word
becomes the final small sigma.
-/
namespace PathRouting.Text

def capitalSigma : Nat := 0x3A3

/-- The one-character image of a code point under a list of runs, or the code point itself. -/
def mapByRuns (runs : List CaseRun) (n : Nat) : Nat :=
  (runs.findSome? fun r => r.apply? n).getD n

def upperAscii (c : Char) : Char := if 'a' ≤ c && c ≤ 'z' then Char.ofNat (c.toNat - 32) else c

def lowerAscii (c : Char) : Char := if 'A' ≤ c && c ≤ 'Z' then Char.ofNat (c.toNat + 32) else c

def upperChar (c : Char) : List Char :=
  if c.toNat < 128 then [upperAscii c]
  else match upperSpecials.lookup c.toNat with
    | some codes => codes.map Char.ofNat
    | none => [Char.ofNat (mapByRuns upperRuns c.toNat)]

def lowerChar (c : Char) : List Char :=
  if c.toNat < 128 then [lowerAscii c]
  else if c.toNat == 0x130 then [Char.ofNat 0x69, Char.ofNat 0x307]
  else [Char.ofNat (mapByRuns lowerRuns c.toNat)]

/-- Lower case as a single character, the dot of a capital dotted i being dropped. -/
def lowerSimple (c : Char) : Char :=
  if c.toNat < 128 then lowerAscii c
  else if c.toNat == 0x130 then 'i'
  else Char.ofNat (mapByRuns lowerRuns c.toNat)

def nextIsCased : List Char → Bool
  | [] => false
  | c :: rest =>
    if inSteps caseIgnorableSteps c.toNat then nextIsCased rest else inSteps casedSteps c.toNat

/-- Lower case of a text whose already read part is given in reverse. -/
def lowerFrom : List Char → List Char → List Char
  | _, [] => []
  | before, c :: rest =>
    (if c.toNat == capitalSigma then
      if nextIsCased before && !nextIsCased rest then [Char.ofNat 0x3C2] else [Char.ofNat 0x3C3]
     else lowerChar c) ++ lowerFrom (c :: before) rest

def upper (s : String) : String := String.ofList (s.toList.flatMap upperChar)

def lower (s : String) : String := String.ofList (lowerFrom [] s.toList)

end PathRouting.Text
