import Tns.Lnx.DottedQuad

/-!
# Configuration files

`lnxconfig_parse` reads an `.lnx` file line by line.  A byte of the file is the
character of its number, and addresses are in host byte order.
-/

namespace Tns.Lnx

open Library Ip

inductive RoutingMode where
  | none
  | static
  | rip
  deriving DecidableEq, Repr

/-- `interface <ifname> <assigned ip>/<prefix> <udp_addr>:<udp_port>` -/
structure LnxInterface where
  name : List Char
  assignedIp : UInt32
  prefixLen : ℤ
  udpAddr : UInt32
  udpPort : UInt16
  deriving DecidableEq, Repr

/-- `neighbor <dest_addr> at <udp-addr>:<udp port> via <ifname>` -/
structure LnxNeighbor where
  destAddr : UInt32
  udpAddr : UInt32
  udpPort : UInt16
  ifname : List Char
  deriving DecidableEq, Repr

/-- `route <network_addr>/<prefix> via <next_hop_addr>` -/
structure LnxStaticRoute where
  networkAddr : UInt32
  prefixLen : ℤ
  nextHop : UInt32
  deriving DecidableEq, Repr

structure LnxConfig where
  interfaces : List LnxInterface := []
  neighbors : List LnxNeighbor := []
  ripNeighbors : List UInt32 := []
  staticRoutes : List LnxStaticRoute := []
  routingMode : RoutingMode := .static
  deriving DecidableEq, Repr

/-- Why a file is not read to its end. -/
inductive Failure where
  /-- The program exits with this message. -/
  | parseError (message : String)
  /-- `sscanf` meets a number that no `int` holds. -/
  | undefined
  deriving DecidableEq, Repr

def LINE_MAX : ℕ := 2048

/-- `do_parse_error`. -/
def doParseError {α : Type} (currentLine : ℕ) (msg : String) : Except Failure α :=
  .error (.parseError ("Parse error, line " ++ toString currentLine ++ ":  " ++ msg ++ "\n"))

/-- `parse_addr`.  What `inet_pton` does not take leaves the address zero. -/
def parseAddr (ipStr : List Char) : UInt32 := (inetPton ipStr).getD 0

/-- A number that was assigned fits into an `int`. -/
def fitsInt : Assigned → Bool
  | .number n => -2 ^ 31 ≤ n ∧ n < 2 ^ 31
  | .text _ => true

def sscanf (line : List Char) (format : List Directive) : Except Failure (List Assigned) :=
  let assigned := scan isSpace format line
  if assigned.all fitsInt then .ok assigned else .error .undefined

/-! ## The lines -/

/-- `"interface %32s %32[^/]/%2d %32[^:]:%d"` -/
def interfaceFormat : List Directive :=
  literal "interface" ++ [.space, .string 32, .space, .scanset 32 (· != '/'), .char '/',
    .decimal (some 2), .space, .scanset 32 (· != ':'), .char ':', .decimal none]

/-- `"neighbor %32s at %32[^:]:%d via %32[^ #]"` -/
def neighborFormat : List Directive :=
  literal "neighbor" ++ [.space, .string 32, .space] ++ literal "at" ++
    [.space, .scanset 32 (· != ':'), .char ':', .decimal none, .space] ++ literal "via" ++
    [.space, .scanset 32 fun c ↦ c != ' ' && c != '#']

/-- `"routing %32s"` -/
def routingFormat : List Directive := literal "routing" ++ [.space, .string 32]

/-- `"rip advertise-to %32s"` -/
def ripFormat : List Directive :=
  literal "rip" ++ [.space] ++ literal "advertise-to" ++ [.space, .string 32]

/-- `"route %32[^/]/%2d via %32s"` -/
def routeFormat : List Directive :=
  literal "route" ++ [.space, .scanset 32 (· != '/'), .char '/', .decimal (some 2), .space] ++
    literal "via" ++ [.space, .string 32]

section Lines

variable (config : LnxConfig) (currentLine : ℕ) (line : List Char)

def parseInterface : Except Failure LnxConfig := do
  match ← sscanf line interfaceFormat with
  | [.text name, .text ip, .number prefixLen, .text udpIp, .number port] =>
      return { config with interfaces := config.interfaces ++ [{
        name, prefixLen, assignedIp := parseAddr ip, udpAddr := parseAddr udpIp
        udpPort := .ofInt port }] }
  | _ => doParseError currentLine "Did not find enough tokens"

def parseNeighbor : Except Failure LnxConfig := do
  match ← sscanf line neighborFormat with
  | [.text ip, .text udpIp, .number port, .text ifname] =>
      return { config with neighbors := config.neighbors ++ [{
        ifname, destAddr := parseAddr ip, udpAddr := parseAddr udpIp, udpPort := .ofInt port }] }
  | _ => doParseError currentLine "Did not find enough tokens"

def parseRouting : Except Failure LnxConfig := do
  match ← sscanf line routingFormat with
  | [.text mode] =>
      if mode = chars "rip" then return { config with routingMode := .rip }
      else if mode = chars "static" then return { config with routingMode := .static }
      else doParseError currentLine "Unrecognized routing mode"
  | _ => doParseError currentLine "Did not find enough tokens"

def parseRip : Except Failure LnxConfig := do
  match ← sscanf line ripFormat with
  | [.text ip] => return { config with ripNeighbors := config.ripNeighbors ++ [parseAddr ip] }
  | _ => doParseError currentLine "Did not find enough tokens"

def parseRoute : Except Failure LnxConfig := do
  match ← sscanf line routeFormat with
  | [.text ip, .number prefixLen, .text nextHop] =>
      return { config with staticRoutes := config.staticRoutes ++ [{
        prefixLen, networkAddr := parseAddr ip, nextHop := parseAddr nextHop }] }
  | _ => doParseError currentLine "Did not find enough tokens"

/-- A pass of the loop of `lnxconfig_parse`, with the line up to its first zero. -/
def parseText : Except Failure LnxConfig :=
  if line.head? = some '#' then .ok config
  else
    match scan isSpace [.string 10] line with
    | [.text firstToken] =>
        if firstToken = chars "interface" then parseInterface config currentLine line
        else if firstToken = chars "neighbor" then parseNeighbor config currentLine line
        else if firstToken = chars "routing" then parseRouting config currentLine line
        else if firstToken = chars "rip" then parseRip config currentLine line
        else if firstToken = chars "route" then parseRoute config currentLine line
        else .ok config
    | _ => .ok config

def parseLine : Except Failure LnxConfig :=
  parseText config currentLine (line.takeWhile fun c ↦ c.toNat != 0)

end Lines

/-- `lnxconfig_parse`, of the first file that is read. -/
def lnxconfigParse (file : List Char) : Except Failure LnxConfig :=
  ((fgetsLines LINE_MAX file).zipIdx 1).foldlM
    (fun config line ↦ parseLine config line.2 line.1) {}

end Tns.Lnx
