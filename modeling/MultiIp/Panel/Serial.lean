import MultiIp.Wire.Answer

/-!
# The panel's serial port

`TmsControlPanel/SerialManager.cs`: characters are collected into lines, and
lines into the answer of the command that waits.
-/

namespace MultiIp.Panel

open Lib Wire

/-! ## Strings of .NET -/

def isAscii (c : Char) : Bool := c.toNat < 128

/-- `ReadExisting` and `Write` with the port's ASCII encoding. -/
def asciiChar (c : Char) : Char := if isAscii c then c else '?'

/-- `string.StartsWith(string)` compares in the current culture, which may ignore control characters and take
two letters for one. Printable text has only prefixes that it has character by character, and a prefix
is found whatever follows it, unless it ends inside a word. -/
structure Culture where
  startsWith : Text → Text → Bool
  isPrefix_of : ∀ s p : Text, (∀ c ∈ s, isPrintable c = true) → (∀ c ∈ p, isPrintable c = true) →
    startsWith s p = true → p <+: s
  of_append : ∀ p s : Text, (∀ c ∈ p, isPrintable c = true) → (∀ c ∈ s, isAscii c = true) →
    (p.getLast?.any Char.isAlpha && s.head?.any Char.isAlpha) = false → startsWith (p ++ s) p = true

/-- Character by character, as in .NET's globalization-invariant mode. -/
def Culture.ordinal : Culture where
  startsWith s p := p.isPrefixOf s
  isPrefix_of _ _ _ _ h := List.isPrefixOf_iff_prefix.mp h
  of_append _ _ _ _ _ := List.isPrefixOf_iff_prefix.mpr (List.prefix_append _ _)

/-- `Trim()`. -/
def trim (s : Text) : Text := ((s.dropWhile isSpace).reverse.dropWhile isSpace).reverse

/-- `TrimEnd('\r')`. -/
def trimEndCr (s : Text) : Text := (s.reverse.dropWhile (· == '\r')).reverse

/-! ## Answers -/

structure ProtocolResponse where
  Name : Text
  Status : Text
  DataLines : List Text
  deriving DecidableEq

def ProtocolResponse.Ok (r : ProtocolResponse) : Bool := r.Status == "OK".toList

/-- `_collectName` and `_collectLines`. -/
structure Collector where
  collectName : Option Text
  collectLines : List Text
  deriving DecidableEq

def Collector.init : Collector := ⟨none, []⟩

/-- What `ProcessLine` does besides collecting. -/
inductive Outcome
  /-- `_pendingTcs?.TrySetResult(resp)`. -/
  | result (resp : ProtocolResponse)
  /-- `AsyncLineReceived?.Invoke(line)`. -/
  | asyncLine (line : Text)
  deriving DecidableEq

/-- The response at an `#END` line whose rest is `rest`. -/
def endResponse (rest : Text) (lines : List Text) : ProtocolResponse :=
  let name := rest.takeWhile (· ≠ ' ')
  { Name := name
    Status := if ' ' ∈ rest then trim (rest.drop (name.length + 1)) else []
    DataLines := lines }

def processLine (cu : Culture) (s : Collector) (line : Text) : Collector × Option Outcome :=
  if !cu.startsWith line "#".toList then
    if line = [] then (s, none)
    else if s.collectName.isSome then ({ s with collectLines := s.collectLines ++ [line] }, none)
    else (s, some (.asyncLine line))
  else if cu.startsWith line "#EVT ".toList then (s, some (.asyncLine (line.drop 5)))
  else if cu.startsWith line "#BEGIN ".toList then
    ({ collectName := some (trim (line.drop 7)), collectLines := [] }, none)
  else if cu.startsWith line "#END ".toList then
    ({ s with collectName := none }, some (.result (endResponse (trim (line.drop 5)) s.collectLines)))
  else if cu.startsWith line "#ERR".toList then
    (s, some (.result { Name := [], Status := "ERR:".toList ++ trim (line.drop 4), DataLines := [] }))
  else if s.collectName.isSome then ({ s with collectLines := s.collectLines ++ [line] }, none)
  else (s, none)

/-- `TrySetResult` of a command that waits: the response that `ProcessLine` gives it. -/
def Outcome.response : Option Outcome → Option ProtocolResponse
  | some (.result resp) => some resp
  | _ => none

/-! ## Receiving -/

/-- The collector and all responses that `ProcessLine` has handed over. -/
abbrev Handed := Collector × List ProtocolResponse

/-- One line of the stream, with its carriage return. -/
def handLine (cu : Culture) (st : Handed) (line : Text) : Handed :=
  let r := processLine cu st.1 (trimEndCr line)
  (r.1, st.2 ++ (Outcome.response r.2).toList)

/-- `Port_DataReceived` for one chunk. -/
def portDataReceived (cu : Culture) (p : Text × Handed) (chunk : Text) : Text × Handed :=
  (chunk.map asciiChar).foldl (feedChar (handLine cu)) p

end MultiIp.Panel
