import Mathlib.Data.List.Induction
import Tns.Lnx.Config

/-!
# What a configuration file says

A file of lines in the documented form, with comments behind them, is read as
what its lines say.  In the line of a neighbour the comment is what ends the name
of the interface: without one the newline becomes part of it.
-/

namespace Tns.Lnx

open Library Ip

/-- A line of an `.lnx` file, without its comment. -/
inductive Entry where
  | interface (name : List Char) (assignedIp : UInt32) (prefixLen : ℕ) (udpAddr : UInt32)
      (udpPort : ℕ)
  | neighbor (destAddr udpAddr : UInt32) (udpPort : ℕ) (ifname : List Char)
  | routing (mode : RoutingMode)
  | advertiseTo (dest : UInt32)
  | route (networkAddr : UInt32) (prefixLen : ℕ) (nextHop : UInt32)
  deriving DecidableEq

/-- A line of an `.lnx` file. -/
structure Line where
  entry : Option Entry
  comment : List Char
  deriving DecidableEq

/-- `%32s` and `%32[^ #]` take it whole. -/
structure Word (w : List Char) : Prop where
  ne_nil : w ≠ []
  length_lt : w.length < 32
  chars : ∀ c ∈ w, isSpace c = false ∧ c ≠ '#' ∧ c.toNat ≠ 0

def RoutingMode.text : RoutingMode → List Char
  | .none => chars "none"
  | .static => chars "static"
  | .rip => chars "rip"

def interfaceText (name : List Char) (assignedIp : UInt32) (prefixLen : ℕ) (udpAddr : UInt32)
    (udpPort : ℕ) : List Char :=
  chars "interface" ++ ' ' :: (name ++ ' ' :: (inetNtop assignedIp ++
    '/' :: (Nat.toDigits 10 prefixLen ++ ' ' :: (inetNtop udpAddr ++
      ':' :: Nat.toDigits 10 udpPort))))

def neighborText (destAddr udpAddr : UInt32) (udpPort : ℕ) (ifname : List Char) : List Char :=
  chars "neighbor" ++ ' ' :: (inetNtop destAddr ++ ' ' :: (chars "at" ++
    ' ' :: (inetNtop udpAddr ++ ':' :: (Nat.toDigits 10 udpPort ++
      ' ' :: (chars "via" ++ ' ' :: ifname)))))

def routingText (mode : RoutingMode) : List Char := chars "routing" ++ ' ' :: mode.text

def advertiseToText (dest : UInt32) : List Char :=
  chars "rip" ++ ' ' :: (chars "advertise-to" ++ ' ' :: inetNtop dest)

def routeText (networkAddr : UInt32) (prefixLen : ℕ) (nextHop : UInt32) : List Char :=
  chars "route" ++ ' ' :: (inetNtop networkAddr ++ '/' :: (Nat.toDigits 10 prefixLen ++
    ' ' :: (chars "via" ++ ' ' :: inetNtop nextHop)))

namespace Entry

def text : Entry → List Char
  | .interface name assignedIp prefixLen udpAddr udpPort =>
      interfaceText name assignedIp prefixLen udpAddr udpPort
  | .neighbor destAddr udpAddr udpPort ifname => neighborText destAddr udpAddr udpPort ifname
  | .routing mode => routingText mode
  | .advertiseTo dest => advertiseToText dest
  | .route networkAddr prefixLen nextHop => routeText networkAddr prefixLen nextHop

/-- The entry keeps to the bounds of the formats. -/
def Wf : Entry → Prop
  | .interface name _ prefixLen _ udpPort => Word name ∧ prefixLen < 100 ∧ udpPort < 2 ^ 31
  | .neighbor _ _ udpPort ifname => Word ifname ∧ udpPort < 2 ^ 31
  | .routing mode => mode ≠ .none
  | .advertiseTo _ => True
  | .route _ prefixLen _ => prefixLen < 100

end Entry

namespace Line

def text (line : Line) : List Char := line.entry.elim [] Entry.text ++ line.comment

/-- What is behind the entry is set off from it, and a line without an entry is a comment or
empty. -/
structure Wf (line : Line) : Prop where
  entry : ∀ e ∈ line.entry, e.Wf
  comment : ∀ c ∈ line.comment.head?, c = if line.entry.isSome then ' ' else '#'

/-- The line fits into the buffer. -/
structure Fits (line : Line) : Prop where
  newline : '\n' ∉ line.text
  length_le : line.text.length + 2 ≤ LINE_MAX

/-- What the line adds to the configuration. -/
def add (config : LnxConfig) (line : Line) : LnxConfig :=
  match line.entry with
  | none => config
  | some (.interface name assignedIp prefixLen udpAddr udpPort) =>
      { config with interfaces := config.interfaces ++ [{
        name, assignedIp, prefixLen, udpAddr, udpPort := .ofNat udpPort }] }
  | some (.neighbor destAddr udpAddr udpPort ifname) =>
      { config with neighbors := config.neighbors ++ [{
        destAddr, udpAddr, udpPort := .ofNat udpPort
        ifname := if line.comment = [] then ifname ++ ['\n'] else ifname }] }
  | some (.routing mode) => { config with routingMode := mode }
  | some (.advertiseTo dest) => { config with ripNeighbors := config.ripNeighbors ++ [dest] }
  | some (.route networkAddr prefixLen nextHop) =>
      { config with staticRoutes := config.staticRoutes ++ [{ networkAddr, prefixLen, nextHop }] }

end Line

/-! ## Items of a line -/

section Items

variable {ds : List Directive} {w rest : List Char} {c : Char} {addr : UInt32} {n : ℕ}

theorem toNat_ne_zero_of_isDigit (h : c.isDigit = true) : c.toNat ≠ 0 := by
  rintro heq
  have hc : c = '\x00' := Char.toNat_inj.mp heq
  subst hc
  cases h

theorem word_inetNtop (addr : UInt32) : Word (inetNtop addr) := by
  refine ⟨inetNtop_ne_nil addr, (length_inetNtop_le addr).trans_lt (by decide), ?_⟩
  intro c hc
  rcases mem_inetNtop hc with hdigit | rfl
  · refine ⟨not_isSpace_of_isDigit hdigit, ?_, toNat_ne_zero_of_isDigit hdigit⟩
    rintro rfl
    cases hdigit
  · exact ⟨rfl, by decide, by decide⟩

theorem Word.endsBefore (h : Word w) (rest : List Char) : EndsBefore isSpace (w ++ rest) :=
  endsBefore_append h.ne_nil fun c hc ↦ (h.chars c hc).1

theorem scan_blank (hrest : EndsBefore isSpace rest) :
    scan isSpace (.space :: ds) (' ' :: rest) = scan isSpace ds rest := scan_space rfl hrest

theorem scan_word (h : Word w) (rest : List Char) :
    scan isSpace (.string 32 :: ds) (w ++ ' ' :: rest) =
      .text w :: scan isSpace ds (' ' :: rest) :=
  scan_string h.ne_nil (fun c hc ↦ (h.chars c hc).1) h.length_lt.le (endsBefore_cons rfl rest)

/-- The last word of a line. -/
theorem scan_lastWord (h : Word w) (hrest : EndsBefore (fun c ↦ !isSpace c) rest) :
    scan isSpace [.string 32] (w ++ rest) = [.text w] :=
  scan_string h.ne_nil (fun c hc ↦ (h.chars c hc).1) h.length_lt.le hrest

/-- An address up to the character that ends it. -/
theorem scan_inetNtop (stop : Char) (hdigit : stop.isDigit = false) (hdot : stop ≠ '.')
    (rest : List Char) :
    scan isSpace (.scanset 32 (· != stop) :: ds) (inetNtop addr ++ stop :: rest) =
      .text (inetNtop addr) :: scan isSpace ds (stop :: rest) := by
  have hword := word_inetNtop addr
  refine scan_scanset hword.ne_nil ?_ hword.length_lt.le (endsBefore_cons (by simp) rest)
  intro c hc
  rw [bne_iff_ne]
  rintro rfl
  rcases mem_inetNtop hc with h | h
  · rw [hdigit] at h
    cases h
  · exact hdot h

theorem scan_port (hrest : EndsBefore Char.isDigit rest) :
    scan isSpace (.decimal none :: ds) (Nat.toDigits 10 n ++ rest) =
      .number n :: scan isSpace ds rest :=
  scan_decimal n (fun _ ↦ not_isSpace_of_isDigit) (by simp) hrest

theorem scan_prefixLen (hn : n < 100) (rest : List Char) :
    scan isSpace (.decimal (some 2) :: ds) (Nat.toDigits 10 n ++ ' ' :: rest) =
      .number n :: scan isSpace ds (' ' :: rest) := by
  refine scan_decimal n (fun _ ↦ not_isSpace_of_isDigit) ?_ (endsBefore_cons rfl rest)
  intro width hwidth
  obtain rfl := Option.some.inj hwidth
  exact (Nat.length_toDigits_le_iff (by decide) (by decide)).mpr hn

end Items

/-! ## Lines that are read back -/

section Lines

variable {config : LnxConfig} {currentLine : ℕ} {name item rest keyword : List Char}
  {addr addr' : UInt32} {prefixLen port : ℕ}

/-- A word that a line can start with. -/
structure Keyword (w : List Char) : Prop where
  ne_nil : w ≠ []
  isSpace : ∀ c ∈ w, isSpace c = false
  length_le : w.length ≤ 10
  head : w.head? ≠ some '#'

theorem keyword_interface : Keyword (chars "interface") :=
  ⟨by simp [chars], by simp [chars, Ip.isSpace], by simp [chars], by simp [chars]⟩

theorem keyword_neighbor : Keyword (chars "neighbor") :=
  ⟨by simp [chars], by simp [chars, Ip.isSpace], by simp [chars], by simp [chars]⟩

theorem keyword_routing : Keyword (chars "routing") :=
  ⟨by simp [chars], by simp [chars, Ip.isSpace], by simp [chars], by simp [chars]⟩

theorem keyword_rip : Keyword (chars "rip") :=
  ⟨by simp [chars], by simp [chars, Ip.isSpace], by simp [chars], by simp [chars]⟩

theorem keyword_route : Keyword (chars "route") :=
  ⟨by simp [chars], by simp [chars, Ip.isSpace], by simp [chars], by simp [chars]⟩

/-- The first word of a line decides how it is read. -/
theorem Keyword.parseText_eq (h : Keyword keyword) (rest : List Char) :
    parseText config currentLine (keyword ++ ' ' :: rest) =
      if keyword = chars "interface" then
        parseInterface config currentLine (keyword ++ ' ' :: rest)
      else if keyword = chars "neighbor" then
        parseNeighbor config currentLine (keyword ++ ' ' :: rest)
      else if keyword = chars "routing" then
        parseRouting config currentLine (keyword ++ ' ' :: rest)
      else if keyword = chars "rip" then parseRip config currentLine (keyword ++ ' ' :: rest)
      else if keyword = chars "route" then parseRoute config currentLine (keyword ++ ' ' :: rest)
      else .ok config := by
  have htoken : scan Ip.isSpace [.string 10] (keyword ++ ' ' :: rest) = [.text keyword] :=
    scan_string h.ne_nil h.isSpace h.length_le (endsBefore_cons rfl rest)
  have hhead : (keyword ++ ' ' :: rest).head? ≠ some '#' := by
    rw [List.head?_append_of_ne_nil _ h.ne_nil]
    exact h.head
  rw [parseText, if_neg hhead, htoken]

theorem sscanf_eq {format : List Directive} {line : List Char} {assigned : List Assigned}
    (hscan : scan isSpace format line = assigned) (hfits : ∀ a ∈ assigned, fitsInt a = true) :
    sscanf line format = .ok assigned := by
  rw [sscanf, hscan]
  exact if_pos (List.all_eq_true.mpr hfits)

theorem ofInt_natCast (n : ℕ) : UInt16.ofInt n = .ofNat n := by
  apply UInt16.toNat_inj.mp
  rw [UInt16.ofInt, UInt16.toNat_ofNat', UInt16.toNat_ofNat']
  omega

theorem parseAddr_inetNtop (addr : UInt32) : parseAddr (inetNtop addr) = addr := by
  rw [parseAddr, inetPton_inetNtop, Option.getD_some]

variable (addr addr' port) in
theorem scan_interfaceText (hname : Word name) (hlength : prefixLen < 100)
    (hrest : EndsBefore Char.isDigit rest) :
    scan isSpace interfaceFormat (interfaceText name addr prefixLen addr' port ++ rest) =
      [.text name, .text (inetNtop addr), .number prefixLen, .text (inetNtop addr'),
        .number port] := by
  simp only [interfaceFormat, interfaceText, List.append_assoc, List.cons_append]
  rw [scan_literal, scan_blank (hname.endsBefore _), scan_word hname,
    scan_blank ((word_inetNtop addr).endsBefore _), scan_inetNtop '/' rfl (by decide), scan_char,
    scan_prefixLen hlength, scan_blank ((word_inetNtop addr').endsBefore _),
    scan_inetNtop ':' rfl (by decide), scan_char, scan_port hrest]
  rfl

theorem parseText_interfaceText (hname : Word name) (hlength : prefixLen < 100)
    (hport : port < 2 ^ 31) (hrest : EndsBefore Char.isDigit rest) :
    parseText config currentLine (interfaceText name addr prefixLen addr' port ++ rest) =
      .ok { config with interfaces := config.interfaces ++ [{
        name, assignedIp := addr, prefixLen, udpAddr := addr', udpPort := .ofNat port }] } := by
  have hfits : ∀ a ∈ [Assigned.text name, .text (inetNtop addr), .number prefixLen,
      .text (inetNtop addr'), .number port], fitsInt a = true := by
    simp [fitsInt]
    omega
  have hsscanf := sscanf_eq (scan_interfaceText addr addr' port hname hlength hrest) hfits
  rw [interfaceText, List.append_assoc, List.cons_append] at hsscanf ⊢
  rw [keyword_interface.parseText_eq, if_pos rfl, parseInterface, hsscanf]
  simp only [Except.ok_bind, parseAddr_inetNtop, ofInt_natCast]
  rfl

variable (addr addr' port) in
theorem scan_neighborText (hne : item ≠ []) (hitem : ∀ c ∈ item, c ≠ ' ' ∧ c ≠ '#')
    (hlength : item.length ≤ 32) (hstart : EndsBefore isSpace (item ++ rest))
    (hrest : EndsBefore (fun c ↦ c != ' ' && c != '#') rest) :
    scan isSpace neighborFormat (neighborText addr addr' port item ++ rest) =
      [.text (inetNtop addr), .text (inetNtop addr'), .number port, .text item] := by
  have hat : EndsBefore isSpace (chars "at" ++ ' ' :: (inetNtop addr' ++ ':' ::
      (Nat.toDigits 10 port ++ ' ' :: (chars "via" ++ ' ' :: (item ++ rest))))) :=
    endsBefore_append (by simp [chars]) (by simp [chars, isSpace])
  have hvia : EndsBefore isSpace (chars "via" ++ ' ' :: (item ++ rest)) :=
    endsBefore_append (by simp [chars]) (by simp [chars, isSpace])
  simp only [neighborFormat, neighborText, List.append_assoc, List.cons_append, List.nil_append]
  rw [scan_literal, scan_blank ((word_inetNtop addr).endsBefore _), scan_word (word_inetNtop addr),
    scan_blank hat, scan_literal, scan_blank ((word_inetNtop addr').endsBefore _),
    scan_inetNtop ':' rfl (by decide), scan_char, scan_port (endsBefore_cons rfl _),
    scan_blank hvia, scan_literal, scan_blank hstart,
    scan_scanset hne (fun c hc ↦ by simp [hitem c hc]) hlength hrest]
  rfl

theorem parseText_neighborText (hne : item ≠ []) (hitem : ∀ c ∈ item, c ≠ ' ' ∧ c ≠ '#')
    (hlength : item.length ≤ 32) (hstart : EndsBefore isSpace (item ++ rest))
    (hrest : EndsBefore (fun c ↦ c != ' ' && c != '#') rest) (hport : port < 2 ^ 31) :
    parseText config currentLine (neighborText addr addr' port item ++ rest) =
      .ok { config with neighbors := config.neighbors ++ [{
        destAddr := addr, udpAddr := addr', udpPort := .ofNat port, ifname := item }] } := by
  have hfits : ∀ a ∈ [Assigned.text (inetNtop addr), .text (inetNtop addr'), .number port,
      .text item], fitsInt a = true := by
    simp [fitsInt]
    omega
  have hsscanf := sscanf_eq (scan_neighborText addr addr' port hne hitem hlength hstart hrest) hfits
  rw [neighborText, List.append_assoc, List.cons_append] at hsscanf ⊢
  rw [keyword_neighbor.parseText_eq, if_neg (by simp [chars]), if_pos rfl, parseNeighbor, hsscanf]
  simp only [Except.ok_bind, parseAddr_inetNtop, ofInt_natCast]
  rfl

theorem parseText_routingText {mode : RoutingMode} (hmode : mode ≠ .none)
    (hrest : EndsBefore (fun c ↦ !isSpace c) rest) :
    parseText config currentLine (routingText mode ++ rest) =
      .ok { config with routingMode := mode } := by
  have hword : Word mode.text := by
    cases mode <;> exact ⟨by simp [RoutingMode.text, chars], by simp [RoutingMode.text, chars],
      by simp [RoutingMode.text, chars, isSpace]⟩
  have hscan : scan isSpace routingFormat (chars "routing" ++ ' ' :: (mode.text ++ rest)) =
      [.text mode.text] := by
    rw [routingFormat, scan_literal, scan_blank (hword.endsBefore _), scan_lastWord hword hrest]
  have hsscanf := sscanf_eq hscan (by simp [fitsInt])
  rw [routingText, List.append_assoc, List.cons_append, keyword_routing.parseText_eq,
    if_neg (by simp [chars]), if_neg (by simp [chars]), if_pos rfl, parseRouting, hsscanf,
    Except.ok_bind]
  cases mode with
  | none => exact absurd rfl hmode
  | rip => exact if_pos rfl
  | static =>
      have hrip : RoutingMode.static.text ≠ chars "rip" := by simp [RoutingMode.text, chars]
      simp only [if_neg hrip]
      exact if_pos rfl

theorem parseText_advertiseToText (hrest : EndsBefore (fun c ↦ !isSpace c) rest) :
    parseText config currentLine (advertiseToText addr ++ rest) =
      .ok { config with ripNeighbors := config.ripNeighbors ++ [addr] } := by
  have hto : EndsBefore isSpace (chars "advertise-to" ++ ' ' :: (inetNtop addr ++ rest)) :=
    endsBefore_append (by simp [chars]) (by simp [chars, isSpace])
  have hscan : scan isSpace ripFormat
      (chars "rip" ++ ' ' :: (chars "advertise-to" ++ ' ' :: (inetNtop addr ++ rest))) =
        [.text (inetNtop addr)] := by
    simp only [ripFormat, List.append_assoc, List.cons_append, List.nil_append]
    rw [scan_literal, scan_blank hto, scan_literal, scan_blank ((word_inetNtop addr).endsBefore _),
      scan_lastWord (word_inetNtop addr) hrest]
  have hsscanf := sscanf_eq hscan (by simp [fitsInt])
  simp only [advertiseToText, List.append_assoc, List.cons_append]
  rw [keyword_rip.parseText_eq, if_neg (by simp [chars]), if_neg (by simp [chars]),
    if_neg (by simp [chars]), if_pos rfl, parseRip, hsscanf]
  simp only [Except.ok_bind, parseAddr_inetNtop]
  rfl

theorem parseText_routeText (hlength : prefixLen < 100)
    (hrest : EndsBefore (fun c ↦ !isSpace c) rest) :
    parseText config currentLine (routeText addr prefixLen addr' ++ rest) =
      .ok { config with staticRoutes := config.staticRoutes ++ [{
        networkAddr := addr, prefixLen, nextHop := addr' }] } := by
  have hvia : EndsBefore isSpace (chars "via" ++ ' ' :: (inetNtop addr' ++ rest)) :=
    endsBefore_append (by simp [chars]) (by simp [chars, isSpace])
  have hscan : scan isSpace routeFormat
      (chars "route" ++ ' ' :: (inetNtop addr ++ '/' :: (Nat.toDigits 10 prefixLen ++
        ' ' :: (chars "via" ++ ' ' :: (inetNtop addr' ++ rest))))) =
        [.text (inetNtop addr), .number prefixLen, .text (inetNtop addr')] := by
    simp only [routeFormat, List.append_assoc, List.cons_append, List.nil_append]
    rw [scan_literal, scan_blank ((word_inetNtop addr).endsBefore _),
      scan_inetNtop '/' rfl (by decide), scan_char, scan_prefixLen hlength, scan_blank hvia,
      scan_literal, scan_blank ((word_inetNtop addr').endsBefore _),
      scan_lastWord (word_inetNtop addr') hrest]
  have hfits : ∀ a ∈ [Assigned.text (inetNtop addr), .number prefixLen, .text (inetNtop addr')],
      fitsInt a = true := by
    simp [fitsInt]
    omega
  have hsscanf := sscanf_eq hscan hfits
  simp only [routeText, List.append_assoc, List.cons_append]
  rw [keyword_route.parseText_eq, if_neg (by simp [chars]), if_neg (by simp [chars]),
    if_neg (by simp [chars]), if_neg (by simp [chars]), if_pos rfl, parseRoute, hsscanf]
  simp only [Except.ok_bind, parseAddr_inetNtop]
  rfl

end Lines

/-! ## Lines and files -/

section Files

variable {config : LnxConfig} {currentLine : ℕ} {e : Entry} {line : Line} {lines : List Line}

theorem Word.plain {w : List Char} (h : Word w) : ∀ c ∈ w, c.toNat ≠ 0 ∧ c ≠ '\n' := by
  intro c hc
  obtain ⟨hspace, -, hzero⟩ := h.chars c hc
  refine ⟨hzero, ?_⟩
  rintro rfl
  cases hspace

theorem plain_toDigits (n : ℕ) : ∀ c ∈ Nat.toDigits 10 n, c.toNat ≠ 0 ∧ c ≠ '\n' := by
  intro c hc
  have hdigit := isDigit_of_mem_toDigits hc
  refine ⟨toNat_ne_zero_of_isDigit hdigit, ?_⟩
  rintro rfl
  cases hdigit

theorem plain_inetNtop (addr : UInt32) : ∀ c ∈ inetNtop addr, c.toNat ≠ 0 ∧ c ≠ '\n' :=
  (word_inetNtop addr).plain

theorem Entry.plain (h : e.Wf) : ∀ c ∈ e.text, c.toNat ≠ 0 ∧ c ≠ '\n' := by
  cases e with
  | interface name assignedIp prefixLen udpAddr udpPort =>
      simp only [Entry.text, interfaceText, List.forall_mem_append, List.forall_mem_cons]
      exact ⟨by simp [chars], by decide, h.1.plain, by decide, plain_inetNtop _, by decide,
        plain_toDigits _, by decide, plain_inetNtop _, by decide, plain_toDigits _⟩
  | neighbor destAddr udpAddr udpPort ifname =>
      simp only [Entry.text, neighborText, List.forall_mem_append, List.forall_mem_cons]
      exact ⟨by simp [chars], by decide, plain_inetNtop _, by decide, by simp [chars], by decide,
        plain_inetNtop _, by decide, plain_toDigits _, by decide, by simp [chars], by decide,
        h.1.plain⟩
  | routing mode =>
      cases mode <;> simp [Entry.text, routingText, RoutingMode.text, chars]
  | advertiseTo dest =>
      simp only [Entry.text, advertiseToText, List.forall_mem_append, List.forall_mem_cons]
      exact ⟨by simp [chars], by decide, by simp [chars], by decide, plain_inetNtop _⟩
  | route networkAddr prefixLen nextHop =>
      simp only [Entry.text, routeText, List.forall_mem_append, List.forall_mem_cons]
      exact ⟨by simp [chars], by decide, plain_inetNtop _, by decide, plain_toDigits _, by decide,
        by simp [chars], by decide, plain_inetNtop _⟩

/-- An entry is read with what follows it up to a zero: the rest of the line, which is empty or
starts with a blank. -/
theorem parseText_entry {e : Entry} {comment rest : List Char} (h : e.Wf)
    (hrest : comment = [] ∧ rest = ['\n'] ∨ comment ≠ [] ∧ ∃ cs, rest = ' ' :: cs) :
    parseText config currentLine (e.text ++ rest) =
      .ok (Line.add config { entry := some e, comment }) := by
  have hspace : EndsBefore (fun c ↦ !isSpace c) rest := by
    rcases hrest with ⟨-, rfl⟩ | ⟨-, cs, rfl⟩ <;> exact endsBefore_cons rfl _
  cases e with
  | interface name assignedIp prefixLen udpAddr udpPort =>
      refine parseText_interfaceText h.1 h.2.1 h.2.2 ?_
      rcases hrest with ⟨-, rfl⟩ | ⟨-, cs, rfl⟩ <;> exact endsBefore_cons rfl _
  | neighbor destAddr udpAddr udpPort ifname =>
      have hname : ∀ c ∈ ifname, c ≠ ' ' ∧ c ≠ '#' := by
        intro c hc
        obtain ⟨hnot, hhash, -⟩ := h.1.chars c hc
        refine ⟨?_, hhash⟩
        rintro rfl
        cases hnot
      rcases hrest with ⟨rfl, rfl⟩ | ⟨hne, cs, rfl⟩
      · have hassoc : neighborText destAddr udpAddr udpPort ifname ++ ['\n'] =
            neighborText destAddr udpAddr udpPort (ifname ++ ['\n']) ++ [] := by
          simp only [neighborText, List.append_assoc, List.cons_append, List.append_nil]
        rw [Entry.text, hassoc, parseText_neighborText]
        · rfl
        · simp
        · rw [List.forall_mem_append]
          exact ⟨hname, List.forall_mem_singleton.mpr (by decide)⟩
        · rw [List.length_append]
          exact h.1.length_lt
        · rw [List.append_assoc]
          exact h.1.endsBefore _
        · intro c hc
          cases hc
        · exact h.2
      · rw [Entry.text, parseText_neighborText h.1.ne_nil hname h.1.length_lt.le
          (h.1.endsBefore _) (endsBefore_cons rfl _) h.2]
        simp only [Line.add, if_neg hne]
  | routing mode => exact parseText_routingText h hspace
  | advertiseTo dest => exact parseText_advertiseToText hspace
  | route networkAddr prefixLen nextHop => exact parseText_routeText h hspace

/-- A line is read as what it says. -/
theorem parseLine_text (h : line.Wf) :
    parseLine config currentLine (line.text ++ ['\n']) = .ok (line.add config) := by
  obtain ⟨entry, comment⟩ := line
  cases entry with
  | none =>
      cases comment with
      | nil => rfl
      | cons c cs =>
          obtain rfl : c = '#' := h.comment c rfl
          rfl
  | some e =>
      have he := h.entry e rfl
      have hzero : ∀ c ∈ e.text, (c.toNat != 0) = true := fun c hc ↦
        bne_iff_ne.mpr (Entry.plain he c hc).1
      rw [Line.text, parseLine, List.append_assoc]
      change parseText _ _ ((e.text ++ (comment ++ ['\n'])).takeWhile _) = _
      rw [List.takeWhile_append_of_pos hzero]
      apply parseText_entry he
      cases comment with
      | nil => exact .inl ⟨rfl, rfl⟩
      | cons c cs =>
          obtain rfl : c = ' ' := h.comment c rfl
          exact .inr ⟨List.cons_ne_nil _ _, _, rfl⟩

theorem length_toDigits_le {n : ℕ} (hn : n < 2 ^ 31) : (Nat.toDigits 10 n).length ≤ 10 :=
  (Nat.length_toDigits_le_iff (by decide) (by decide)).mpr (hn.trans (by decide))

theorem length_prefixLen_le {n : ℕ} (hn : n < 100) : (Nat.toDigits 10 n).length ≤ 2 :=
  (Nat.length_toDigits_le_iff (by decide) (by decide)).mpr hn

theorem Entry.length_text_le (h : e.Wf) : e.text.length ≤ 100 := by
  cases e with
  | interface name assignedIp prefixLen udpAddr udpPort =>
      have hname := h.1.length_lt
      have hlength := length_prefixLen_le h.2.1
      have hport := length_toDigits_le h.2.2
      have hip := length_inetNtop_le assignedIp
      have hudp := length_inetNtop_le udpAddr
      simp only [Entry.text, interfaceText, chars, List.length_append, List.length_cons]
      simp
      omega
  | neighbor destAddr udpAddr udpPort ifname =>
      have hname := h.1.length_lt
      have hport := length_toDigits_le h.2
      have hip := length_inetNtop_le destAddr
      have hudp := length_inetNtop_le udpAddr
      simp only [Entry.text, neighborText, chars, List.length_append, List.length_cons]
      simp
      omega
  | routing mode => cases mode <;> simp [Entry.text, routingText, RoutingMode.text, chars]
  | advertiseTo dest =>
      have hip := length_inetNtop_le dest
      simp only [Entry.text, advertiseToText, chars, List.length_append, List.length_cons]
      simp
      omega
  | route networkAddr prefixLen nextHop =>
      have hlength := length_prefixLen_le h
      have hip := length_inetNtop_le networkAddr
      have hnext := length_inetNtop_le nextHop
      simp only [Entry.text, routeText, chars, List.length_append, List.length_cons]
      simp
      omega

/-- A line with a comment of moderate length fits. -/
theorem Line.Wf.fits (h : line.Wf) (hnewline : '\n' ∉ line.comment)
    (hlength : line.comment.length ≤ 1940) : line.Fits := by
  obtain ⟨entry, comment⟩ := line
  cases entry with
  | none =>
      refine ⟨hnewline, ?_⟩
      change comment.length + 2 ≤ 2048
      change comment.length ≤ 1940 at hlength
      omega
  | some e =>
      have he := h.entry e rfl
      constructor
      · rw [Line.text, List.mem_append, not_or]
        exact ⟨fun hmem ↦ (Entry.plain he _ hmem).2 rfl, hnewline⟩
      · have htext : e.text.length ≤ 100 := Entry.length_text_le he
        rw [Line.text, List.length_append]
        change e.text.length + comment.length + 2 ≤ 2048
        change comment.length ≤ 1940 at hlength
        omega

/-- A file. -/
def fileText (lines : List Line) : List Char := lines.flatMap fun line ↦ line.text ++ ['\n']

/-- A file is read as what its lines say. -/
theorem lnxconfigParse_fileText (hwf : ∀ line ∈ lines, line.Wf)
    (hfits : ∀ line ∈ lines, line.Fits) :
    lnxconfigParse (fileText lines) = .ok (lines.foldl Line.add {}) := by
  have hlines : fgetsLines LINE_MAX (fileText lines) =
      lines.map fun line ↦ line.text ++ ['\n'] := by
    have hall : ∀ text ∈ lines.map Line.text, '\n' ∉ text ∧ text.length + 2 ≤ LINE_MAX := by
      intro text htext
      obtain ⟨line, hline, rfl⟩ := List.mem_map.mp htext
      exact ⟨(hfits line hline).newline, (hfits line hline).length_le⟩
    have hflat := fgetsLines_flatMap hall
    rwa [List.flatMap_map, List.map_map] at hflat
  rw [lnxconfigParse, hlines]
  suffices hall : ∀ (n : ℕ) (config : LnxConfig),
      ((lines.map fun line ↦ line.text ++ ['\n']).zipIdx n).foldlM
        (fun config line ↦ parseLine config line.2 line.1) config =
          .ok (lines.foldl Line.add config) from hall 1 {}
  clear hlines hfits
  induction lines with
  | nil => exact fun n config ↦ rfl
  | cons line lines ih =>
      obtain ⟨hline, hwf⟩ := List.forall_mem_cons.mp hwf
      intro n config
      rw [List.map_cons, List.zipIdx_cons, List.foldlM_cons, parseLine_text hline, Except.ok_bind,
        ih hwf]
      rfl

/-! ## What the lines say -/

namespace Line

/-- The interface of the line. -/
def asInterface (line : Line) : Option LnxInterface :=
  match line.entry with
  | some (.interface name assignedIp prefixLen udpAddr udpPort) =>
      some { name, assignedIp, prefixLen, udpAddr, udpPort := .ofNat udpPort }
  | _ => none

def asNeighbor (line : Line) : Option LnxNeighbor :=
  match line.entry with
  | some (.neighbor destAddr udpAddr udpPort ifname) => some {
      destAddr, udpAddr, udpPort := .ofNat udpPort
      ifname := if line.comment = [] then ifname ++ ['\n'] else ifname }
  | _ => none

def asRipNeighbor (line : Line) : Option UInt32 :=
  match line.entry with
  | some (.advertiseTo dest) => some dest
  | _ => none

def asStaticRoute (line : Line) : Option LnxStaticRoute :=
  match line.entry with
  | some (.route networkAddr prefixLen nextHop) => some { networkAddr, prefixLen, nextHop }
  | _ => none

def asRoutingMode (line : Line) : Option RoutingMode :=
  match line.entry with
  | some (.routing mode) => some mode
  | _ => none

end Line

/-- What the lines say, each kind of line by itself. -/
def said (lines : List Line) : LnxConfig where
  interfaces := lines.filterMap Line.asInterface
  neighbors := lines.filterMap Line.asNeighbor
  ripNeighbors := lines.filterMap Line.asRipNeighbor
  staticRoutes := lines.filterMap Line.asStaticRoute
  routingMode := (lines.filterMap Line.asRoutingMode).getLastD .static

theorem said_append_singleton (lines : List Line) (line : Line) :
    said (lines ++ [line]) = Line.add (said lines) line := by
  obtain ⟨entry, comment⟩ := line
  cases entry with
  | none =>
      simp [said, List.filterMap_cons, Line.add, Line.asInterface, Line.asNeighbor,
        Line.asRipNeighbor, Line.asStaticRoute, Line.asRoutingMode]
  | some e =>
      cases e <;>
        simp [said, List.filterMap_cons, Line.add, Line.asInterface, Line.asNeighbor,
          Line.asRipNeighbor, Line.asStaticRoute, Line.asRoutingMode]

theorem foldl_add_eq_said (lines : List Line) : lines.foldl Line.add {} = said lines := by
  induction lines using List.reverseRecOn with
  | nil => rfl
  | append_singleton lines line ih =>
      rw [List.foldl_append, ih, said_append_singleton]
      rfl

/-- A file of lines in the documented form, each short enough for the buffer, is read without error,
and the order of lines of different kinds does not matter: each kind gives its own part of the
configuration, in order, and of the routing modes the last. -/
theorem lnxconfigParse_eq_said (hwf : ∀ line ∈ lines, line.Wf) (hfits : ∀ line ∈ lines, line.Fits) :
    lnxconfigParse (fileText lines) = .ok (said lines) := by
  rw [lnxconfigParse_fileText hwf hfits, foldl_add_eq_said]

/-- A comment, an interface and two neighbours, of which the second has no comment. -/
def exampleLines : List Line :=
  [{ entry := none, comment := ['#'] },
    { entry := some (.interface ['i'] 0x0a000001 24 0x7f000001 5000), comment := [] },
    { entry := some (.neighbor 0x0a000002 0x7f000001 5001 ['i']), comment := [' ', '#'] },
    { entry := some (.neighbor 0x0a000003 0x7f000001 5002 ['i']), comment := [] }]

theorem wf_exampleLines : ∀ line ∈ exampleLines, line.Wf := by
  have hword : Word ['i'] := ⟨by decide, by decide, List.forall_mem_singleton.mpr (by decide)⟩
  simp only [exampleLines, List.forall_mem_cons]
  refine ⟨⟨by simp, by simp⟩, ⟨?_, by simp⟩, ⟨?_, by simp⟩, ⟨?_, by simp⟩,
    List.forall_mem_nil _⟩ <;>
    simp [Entry.Wf, hword]

theorem fits_exampleLines : ∀ line ∈ exampleLines, line.Fits := by
  intro line hline
  refine (wf_exampleLines line hline).fits ?_ ?_
  · revert line
    decide
  · revert line
    decide

theorem lnxconfigParse_eq_said_exampleLines :
    lnxconfigParse (fileText exampleLines) = .ok (said exampleLines) :=
  lnxconfigParse_eq_said wf_exampleLines fits_exampleLines

end Files

end Tns.Lnx
