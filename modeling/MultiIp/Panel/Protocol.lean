import MultiIp.Panel.Serial

/-!
# Reading the data lines

`TmsControlPanel/Protocol.cs`. A token list is read by position, as in the source.
-/

namespace MultiIp.Panel

open Lib Wire

/-- `int.TryParse(s, out n)`, `none` for false. White space around the number and NULs after it are allowed. -/
def tryParseInt (s : Text) : Option Int :=
  let s := (((skipSpace s).reverse.dropWhile (· == '\x00')).dropWhile isSpace).reverse
  let r := scanSign s
  if r.2 ≠ [] ∧ r.2.all Char.isDigit then
    let n : Int := Nat.ofDigitChars 10 r.2 0
    let n := if r.1 then -n else n
    if -2 ^ 31 ≤ n ∧ n < 2 ^ 31 then some n else none
  else none

/-- The value of the `out` variable: 0 when the text is not a number. -/
def parseIntOut (s : Text) : Int := (tryParseInt s).getD 0

/-! ## PING -/

structure PingReply where
  Success : Bool
  From : Text
  Seq : Int
  Bytes : Int
  RttMs : Int
  Ttl : Int
  deriving DecidableEq

/-- The reply that a data line gives, if it is a `#PONG` line. -/
def pongReply (line : Text) : Option PingReply :=
  match words line with
  | t0 :: t1 :: t2 :: t3 :: t4 :: t5 :: _ =>
    if t0 = "#PONG".toList then
      some ⟨true, t1, parseIntOut t2, parseIntOut t3, parseIntOut t4, parseIntOut t5⟩
    else none
  | _ => none

def parsePing (resp : ProtocolResponse) : PingReply :=
  (resp.DataLines.findSome? pongReply).getD ⟨false, [], 0, 0, 0, 0⟩

/-! ## SCAN -/

structure ScanHost where
  Ip : Text
  Mac : Text
  deriving DecidableEq

def scanHost (cu : Culture) (line : Text) : Option ScanHost :=
  if !cu.startsWith line "Host up:".toList then none
  else
    match words line with
    | _ :: _ :: t2 :: _ :: t4 :: _ => some ⟨t2, t4⟩
    | _ => none

def parseScan (cu : Culture) (resp : ProtocolResponse) : List ScanHost := resp.DataLines.filterMap (scanHost cu)

/-! ## NETIF LIST -/

structure SocketInfo where
  Nth : Int
  Port : Int
  deriving DecidableEq

structure NetifInfo where
  Index : Int
  Ip : Text
  Mask : Text
  Gw : Text
  Sockets : List SocketInfo
  deriving DecidableEq

/-- `result.Find(n => n.Index == owner)?.Sockets.Add(s)`: the first interface with the index gets the socket. -/
def addSocket (owner : Int) (s : SocketInfo) : List NetifInfo → List NetifInfo
  | [] => []
  | n :: l =>
    if n.Index = owner then { n with Sockets := n.Sockets ++ [s] } :: l else n :: addSocket owner s l

/-- `#NETIF` with at least five tokens and a number. -/
def netifOf (t : List Text) : Option NetifInfo :=
  match t with
  | t0 :: t1 :: t2 :: t3 :: t4 :: _ =>
    if t0 = "#NETIF".toList then (tryParseInt t1).map (fun nIdx => ⟨nIdx, t2, t3, t4, []⟩) else none
  | _ => none

/-- `#SOCK` with at least four tokens and three numbers. -/
def sockOf (t : List Text) : Option (Int × SocketInfo) :=
  match t with
  | t0 :: t1 :: t2 :: t3 :: _ =>
    if t0 = "#SOCK".toList then do
      return (← tryParseInt t1, ⟨← tryParseInt t2, ← tryParseInt t3⟩)
    else none
  | _ => none

def parseNetifLine (result : List NetifInfo) (line : Text) : List NetifInfo :=
  match netifOf (words line) with
  | some n => result ++ [n]
  | none =>
    match sockOf (words line) with
    | some (owner, s) => addSocket owner s result
    | none => result

def parseNetifList (resp : ProtocolResponse) : List NetifInfo := resp.DataLines.foldl parseNetifLine []

end MultiIp.Panel
