import Tns.Lnx.NodeData

/-!
# The node that a configuration describes

A file that is read sets up a node if and only if its prefixes are those of an
address, no two of its interfaces share an address or a name, and each gets its
socket.  The node then has exactly the interfaces, neighbours and routes of the
file.
-/

namespace Tns.Lnx

open Library Ip

/-- `inet_aton` reads dotted quads. -/
def ReadsDottedQuads (inetAton : String → Option UInt32) : Prop :=
  ∀ addr, inetAton (addrString addr) = some addr

/-! ## What is written is read again -/

section Addresses

variable {inetAton : String → Option UInt32}

theorem readsDottedQuads_inetPton : ReadsDottedQuads fun s ↦ inetPton s.toList := by
  intro addr
  change inetPton (String.ofList (inetNtop addr)).toList = some addr
  rw [String.toList_ofList, inetPton_inetNtop]

theorem cStr_addrString (addr : UInt32) : cStr (addrString addr) = addrString addr := by
  rw [cStr, addrString, String.toList_ofList]
  congr 1
  rw [List.takeWhile_eq_self_iff]
  exact fun c hc ↦ bne_iff_ne.mpr (plain_inetNtop addr c hc).1

theorem ofString_addrString (haton : ReadsDottedQuads inetAton) (addr : UInt32) :
    Ipv4Address.ofString inetAton (addrString addr) = .ok { addr } := by
  rw [Ipv4Address.ofString, cStr_addrString, haton addr]

theorem toList_cidrString (addr : UInt32) (n : ℕ) :
    (cidrString addr n).toList = inetNtop addr ++ '/' :: Nat.toDigits 10 n := by
  have hint : (toString (n : ℤ)).toList = Nat.toDigits 10 n := by
    change (toString n).toList = _
    exact Nat.toList_repr
  rw [cidrString, String.toList_append, String.toList_append, hint, addrString,
    String.toList_ofList, List.append_assoc]
  rfl

theorem slash_notMem_inetNtop (addr : UInt32) : '/' ∉ inetNtop addr := by
  intro hmem
  rcases mem_inetNtop hmem with h | h
  · cases h
  · exact absurd h (by decide)

theorem strtol_toDigits (n : ℕ) : strtol (Nat.toDigits 10 n) = some (n : ℤ) := by
  rw [(numeral_of_digits Nat.toDigits_ne_nil fun c ↦ isDigit_of_mem_toDigits).strtol_eq]
  simp only [signedValue, List.nil_eq, reduceCtorEq, if_false]
  rw [Nat.ofDigitChars_toDigits (by decide) le_rfl]

theorem parseCidr_cidrString (haton : ReadsDottedQuads inetAton) (addr : UInt32) (len : Fin 33) :
    parseCidr inetAton (cidrString addr len.val) =
      .ok (.ok { address := { addr }, maskLength := len }) := by
  rw [parseCidr_eq_ok_iff]
  refine ⟨_, _, toList_cidrString addr len.val, slash_notMem_inetNtop addr, ?_, rfl, ?_⟩
  · have hquad := haton addr
    rw [← cStr_addrString] at hquad
    exact hquad
  · rw [readMaskLength_eq_some, strtol_toDigits]

/-- A number that is not the length of a mask is refused. -/
theorem parseCidr_cidrString_of_not (inetAton : String → Option UInt32) (addr : UInt32) {n : ℤ}
    (hn : ¬(0 ≤ n ∧ n ≤ 32)) :
    ∃ msg, parseCidr inetAton (cidrString addr n) = .ok (.error msg) := by
  obtain ⟨suffix, hsplit, hvalue⟩ : ∃ suffix,
      (cidrString addr n).toList = inetNtop addr ++ '/' :: suffix ∧ strtol suffix = some n := by
    cases n with
    | ofNat n => exact ⟨_, toList_cidrString addr n, strtol_toDigits n⟩
    | negSucc n =>
        refine ⟨'-' :: Nat.toDigits 10 (n + 1), ?_, ?_⟩
        · have hint : (toString (Int.negSucc n)).toList = '-' :: Nat.toDigits 10 (n + 1) := by
            change ("-" ++ toString (n + 1)).toList = _
            rw [String.toList_append]
            exact congrArg (['-'] ++ ·) Nat.toList_repr
          rw [cidrString, String.toList_append, String.toList_append, hint, addrString,
            String.toList_ofList, List.append_assoc]
          rfl
        · have hnum : Numeral ('-' :: Nat.toDigits 10 (n + 1)) [] ['-']
              (Nat.toDigits 10 (n + 1)) [] :=
            ⟨by simp, by simp, .inr (.inr rfl), Nat.toDigits_ne_nil,
              fun c ↦ isDigit_of_mem_toDigits, by simp⟩
          rw [hnum.strtol_eq, signedValue, if_pos rfl,
            Nat.ofDigitChars_toDigits (by decide) le_rfl]
          rfl
  have hnone : readMaskLength suffix = none := by
    rw [readMaskLength, hvalue]
    exact dif_pos (by omega)
  rcases parseCidr_of_split inetAton hsplit (slash_notMem_inetNtop addr) with
    ⟨_, _, -, hsome, -⟩ | ⟨-, herror⟩
  · cases hnone.symm.trans hsome
  · exact herror

end Addresses

/-! ## Neighbours -/

namespace LnxConfig

variable (config : LnxConfig)

/-- The neighbours of the interface. -/
def neighborsOf (name : List Char) : List LnxNeighbor :=
  config.neighbors.filter fun neighbor ↦ neighbor.ifname = name

/-- The maps after the neighbours of the file. -/
def maps : NeighborMaps := config.neighbors.foldl createNeighbor {}

end LnxConfig

def LnxNeighbor.entry (neighbor : LnxNeighbor) : NetworkInterfaceEntry where
  ipAddress := { addr := neighbor.destAddr }
  udpAddr := neighbor.udpAddr
  udpPort := neighbor.udpPort

theorem emplaceBack_ofList {α : Type} {map : String → List α} {ifName name : List Char}
    {value : α} : emplaceBack map (String.ofList ifName) value (String.ofList name) =
      map (String.ofList name) ++ if ifName = name then [value] else [] := by
  rw [emplaceBack, Function.update_apply]
  simp only [String.ofList_inj]
  by_cases heq : ifName = name
  · subst heq
    rw [if_pos rfl, if_pos rfl]
  · rw [if_neg (Ne.symm heq), if_neg heq, List.append_nil]

/-- The maps list the neighbours of each interface in the order of the file. -/
theorem foldl_createNeighbor (neighbors : List LnxNeighbor) (maps : NeighborMaps)
    (name : List Char) :
    let own := neighbors.filter fun neighbor ↦ neighbor.ifname = name
    let maps' := neighbors.foldl createNeighbor maps
    maps'.ipAddrs (String.ofList name) = maps.ipAddrs (String.ofList name) ++
        own.map (fun neighbor ↦ addrString neighbor.destAddr) ∧
      maps'.udpPorts (String.ofList name) =
        maps.udpPorts (String.ofList name) ++ own.map LnxNeighbor.udpPort ∧
      maps'.udpAddrs (String.ofList name) = maps.udpAddrs (String.ofList name) ++
        own.map (fun neighbor ↦ addrString neighbor.udpAddr) := by
  induction neighbors generalizing maps with
  | nil => simp
  | cons neighbor neighbors ih =>
      have hip : (createNeighbor maps neighbor).ipAddrs (String.ofList name) = _ :=
        emplaceBack_ofList
      have hport : (createNeighbor maps neighbor).udpPorts (String.ofList name) = _ :=
        emplaceBack_ofList
      have hudp : (createNeighbor maps neighbor).udpAddrs (String.ofList name) = _ :=
        emplaceBack_ofList
      obtain ⟨hip', hport', hudp'⟩ := ih (createNeighbor maps neighbor)
      simp only [List.foldl_cons, hip', hport', hudp', hip, hport, hudp, List.filter_cons,
        List.append_assoc]
      by_cases heq : neighbor.ifname = name <;> simp [heq]

section Interfaces

variable {inetAton : String → Option UInt32} {config : LnxConfig} {x : LnxInterface}

theorem neighborEntry_of_neighbor (haton : ReadsDottedQuads inetAton) (neighbor : LnxNeighbor) :
    neighborEntry inetAton
        (addrString neighbor.destAddr, addrString neighbor.udpAddr, neighbor.udpPort) =
      .ok neighbor.entry := by
  simp only [neighborEntry, cStr_addrString, haton neighbor.udpAddr,
    ofString_addrString haton neighbor.destAddr]
  rfl

/-- The subnet of an interface whose prefix is that of an address. -/
def LnxInterface.cidr (x : LnxInterface) : Subnet where
  address := { addr := x.assignedIp }
  maskLength := .ofNat 33 x.prefixLen.toNat

/-- The entries of the neighbours, as the interface keeps them. -/
def LnxConfig.entriesOf (config : LnxConfig) (name : List Char) : List NetworkInterfaceEntry :=
  sortEntries ((config.neighborsOf name).map LnxNeighbor.entry)

def LnxConfig.interfaceData (config : LnxConfig) (x : LnxInterface) : InterfaceData where
  name := String.ofList x.name
  cidr := x.cidr
  neighborIpAddrs := (config.entriesOf x.name).map NetworkInterfaceEntry.ipAddress

/-- The interface that the file describes. -/
def LnxConfig.linkInterface (config : LnxConfig) (x : LnxInterface) : LinkInterface where
  data := config.interfaceData x
  neighborInterfaces := config.entriesOf x.name
  udpAddr := ((config.neighborsOf x.name).getLast?.map LnxNeighbor.udpAddr).getD 0
  udpPort := x.udpPort

/-- Where the socket of the interface is bound. -/
def LnxConfig.sockAddr (config : LnxConfig) (x : LnxInterface) : SockAddr :=
  (config.linkInterface x).sockAddr

theorem mapM_neighborEntry (haton : ReadsDottedQuads inetAton) (neighbors : List LnxNeighbor) :
    ((neighbors.map fun neighbor ↦ addrString neighbor.destAddr).zip
        ((neighbors.map fun neighbor ↦ addrString neighbor.udpAddr).zip
          (neighbors.map LnxNeighbor.udpPort))).mapM (neighborEntry inetAton) =
      .ok (neighbors.map LnxNeighbor.entry) := by
  induction neighbors with
  | nil => rfl
  | cons neighbor neighbors ih =>
      simp only [List.map_cons, List.zip_cons_cons, List.mapM_cons,
        neighborEntry_of_neighbor haton, Except.ok_bind, ih]
      rfl

/-- The constructor of an interface gets what the file says, if the prefix is that of an
address. -/
theorem makeInterface_eq (haton : ReadsDottedQuads inetAton) (hlow : 0 ≤ x.prefixLen)
    (hhigh : x.prefixLen ≤ 32) (openSocket : OpenSocket) (bound : List SockAddr) :
    makeInterface inetAton openSocket bound (createInterface config.maps x) =
      match openSocket bound (config.sockAddr x) with
      | .error call => .error (.systemError ("NetworkInterface::NetworkInterface(): " ++ call))
      | .ok () => .ok (config.linkInterface x) := by
  obtain ⟨hip, hport, hudp⟩ := foldl_createNeighbor config.neighbors {} x.name
  simp only [List.nil_append] at hip hport hudp
  have hcidr : parseCidr inetAton (cidrString x.assignedIp x.prefixLen) = .ok (.ok x.cidr) := by
    have hval : (Fin.ofNat 33 x.prefixLen.toNat).val = x.prefixLen.toNat :=
      Nat.mod_eq_of_lt (by omega)
    have hparse := parseCidr_cidrString haton x.assignedIp (.ofNat 33 x.prefixLen.toNat)
    rwa [hval, Int.toNat_of_nonneg hlow] at hparse
  simp only [makeInterface, createInterface, LnxConfig.maps, hip, hport, hudp, List.length_map,
    ne_eq, not_true_eq_false, or_self, if_false, hcidr, mapM_neighborEntry haton, Except.ok_bind]
  rw [List.getLast?_map, Option.map_map]
  rfl

variable (inetAton config) in
theorem makeInterface_of_not (hlong : ¬(0 ≤ x.prefixLen ∧ x.prefixLen ≤ 32))
    (openSocket : OpenSocket) (bound : List SockAddr) :
    ∃ e, makeInterface inetAton openSocket bound (createInterface config.maps x) = .error e := by
  obtain ⟨hip, hport, hudp⟩ := foldl_createNeighbor config.neighbors {} x.name
  obtain ⟨msg, hcidr⟩ := parseCidr_cidrString_of_not inetAton x.assignedIp hlong
  simp only [makeInterface, createInterface, LnxConfig.maps, hip, hport, hudp, List.nil_append,
    List.length_map, ne_eq, not_true_eq_false, or_self, if_false, hcidr]
  exact ⟨_, rfl⟩

end Interfaces

/-! ## Looking up a neighbour -/

theorem addrLt_iff {a b : Ipv4Address} : addrLt a b = true ↔
    a.addr.toNat < b.addr.toNat ∨ a.addr.toNat = b.addr.toNat ∧ a.port.toNat < b.port.toNat := by
  rw [addrLt, Bool.or_eq_true, Bool.and_eq_true, decide_eq_true_eq, decide_eq_true_eq, beq_iff_eq,
    UInt32.lt_iff_toNat_lt, UInt16.lt_iff_toNat_lt, ← UInt32.toNat_inj]

theorem addrLt_eq_false_iff {a b : Ipv4Address} : addrLt a b = false ↔
    b.addr.toNat < a.addr.toNat ∨ a.addr.toNat = b.addr.toNat ∧ b.port.toNat ≤ a.port.toNat := by
  rw [← Bool.not_eq_true, addrLt_iff]
  omega

theorem pairwise_sortEntries (entries : List NetworkInterfaceEntry) :
    (sortEntries entries).Pairwise fun entry1 entry2 ↦
      addrLt entry2.ipAddress entry1.ipAddress = false := by
  have htrans : ∀ a b c : NetworkInterfaceEntry, (!addrLt b.ipAddress a.ipAddress) = true →
      (!addrLt c.ipAddress b.ipAddress) = true → (!addrLt c.ipAddress a.ipAddress) = true := by
    intro a b c hab hbc
    rw [Bool.not_eq_true', addrLt_eq_false_iff] at hab hbc ⊢
    omega
  have htotal : ∀ a b : NetworkInterfaceEntry,
      (!addrLt b.ipAddress a.ipAddress || !addrLt a.ipAddress b.ipAddress) = true := by
    intro a b
    rw [Bool.or_eq_true, Bool.not_eq_true', Bool.not_eq_true', addrLt_eq_false_iff,
      addrLt_eq_false_iff]
    omega
  have hsorted := List.pairwise_mergeSort htrans htotal entries
  exact hsorted.imp fun h ↦ Bool.not_eq_true' _ ▸ h

theorem findNextHopInterface_eq_lookup (config : LnxConfig) (x : LnxInterface)
    (nextHopAddr : Ipv4Address) :
    (config.linkInterface x).findNextHopInterface nextHopAddr =
      lookup NetworkInterfaceEntry.ipAddress (config.entriesOf x.name) nextHopAddr := by
  refine head?_equalRange ?_ ?_ (pairwise_sortEntries _) nextHopAddr
  · intro a b hab hba
    rw [addrLt_eq_false_iff] at hab hba
    obtain ⟨addr, port⟩ := a
    obtain ⟨addr', port'⟩ := b
    have haddr : addr = addr' := UInt32.toNat_inj.mp (by simp only at hab hba; omega)
    have hport : port = port' := UInt16.toNat_inj.mp (by simp only at hab hba; omega)
    rw [haddr, hport]
  · intro a
    rw [addrLt_eq_false_iff]
    exact .inr ⟨rfl, le_rfl⟩

theorem mem_entriesOf {config : LnxConfig} {name : List Char} {entry : NetworkInterfaceEntry} :
    entry ∈ config.entriesOf name ↔
      ∃ neighbor ∈ config.neighborsOf name, neighbor.entry = entry := by
  rw [LnxConfig.entriesOf, sortEntries, List.mem_mergeSort, List.mem_map]

/-- The search in the sorted neighbours of an interface finds one that the file lists for it under
the address, if there is any. -/
theorem findNextHopInterface_linkInterface (config : LnxConfig) (x : LnxInterface)
    (nextHopAddr : Ipv4Address) :
    match (config.linkInterface x).findNextHopInterface nextHopAddr with
    | some entry => entry.ipAddress = nextHopAddr ∧
        ∃ neighbor ∈ config.neighborsOf x.name, neighbor.entry = entry
    | none => ∀ neighbor ∈ config.neighborsOf x.name, neighbor.entry.ipAddress ≠ nextHopAddr := by
  rw [findNextHopInterface_eq_lookup]
  cases hlookup : lookup NetworkInterfaceEntry.ipAddress (config.entriesOf x.name) nextHopAddr with
  | some entry => exact ⟨key_of_lookup hlookup, mem_entriesOf.mp (mem_of_lookup hlookup)⟩
  | none =>
      intro neighbor hneighbor
      exact lookup_eq_none.mp hlookup _ (mem_entriesOf.mpr ⟨neighbor, hneighbor, rfl⟩)

/-- The name of a neighbour's interface ends with a newline if there is no comment behind it. -/
theorem mem_neighborsOf_said {lines : List Line} {name : List Char} (hname : '\n' ∉ name)
    {neighbor : LnxNeighbor} : neighbor ∈ (said lines).neighborsOf name ↔
      ∃ line ∈ lines, line.comment ≠ [] ∧ line.asNeighbor = some neighbor ∧
        neighbor.ifname = name := by
  rw [LnxConfig.neighborsOf, List.mem_filter, decide_eq_true_eq, said, List.mem_filterMap]
  constructor
  · rintro ⟨⟨line, hline, hneighbor⟩, rfl⟩
    refine ⟨line, hline, ?_, hneighbor, rfl⟩
    intro hcomment
    rw [Line.asNeighbor] at hneighbor
    split at hneighbor
    · obtain rfl := Option.some.inj hneighbor
      simp [hcomment] at hname
    · cases hneighbor
  · rintro ⟨line, hline, -, hneighbor, hifname⟩
    exact ⟨⟨line, hline, hneighbor⟩, hifname⟩

theorem newline_notMem_name {lines : List Line} (hwf : ∀ line ∈ lines, line.Wf) {x : LnxInterface}
    (hx : x ∈ (said lines).interfaces) : '\n' ∉ x.name := by
  obtain ⟨line, hline, hinterface⟩ := List.mem_filterMap.mp hx
  rw [Line.asInterface] at hinterface
  split at hinterface
  · rename_i hentry
    obtain rfl := Option.some.inj hinterface
    have hword := ((hwf line hline).entry _ hentry).1
    exact fun hmem ↦ (hword.plain _ hmem).2 rfl
  · cases hinterface

/-- An interface sends to a neighbour only if the line that lists the neighbour for it goes on with
a comment: without one, the newline is read as part of the name of the interface. -/
theorem findNextHopInterface_of_file {lines : List Line} (hwf : ∀ line ∈ lines, line.Wf)
    (hfits : ∀ line ∈ lines, line.Fits) {config : LnxConfig}
    (hparse : lnxconfigParse (fileText lines) = .ok config) {x : LnxInterface}
    (hx : x ∈ config.interfaces) (nextHopAddr : Ipv4Address) :
    ((config.linkInterface x).findNextHopInterface nextHopAddr).isSome ↔
      ∃ line ∈ lines, line.comment ≠ [] ∧ ∃ neighbor, line.asNeighbor = some neighbor ∧
        neighbor.ifname = x.name ∧ { addr := neighbor.destAddr } = nextHopAddr := by
  rw [lnxconfigParse_fileText hwf hfits, foldl_add_eq_said, Except.ok.injEq] at hparse
  subst hparse
  have hname := newline_notMem_name hwf hx
  rw [findNextHopInterface_eq_lookup]
  constructor
  · intro hsome
    obtain ⟨entry, hlookup⟩ := Option.isSome_iff_exists.mp hsome
    obtain ⟨neighbor, hneighbor, rfl⟩ := mem_entriesOf.mp (mem_of_lookup hlookup)
    obtain ⟨line, hline, hcomment, has, hifname⟩ := (mem_neighborsOf_said hname).mp hneighbor
    have haddr : neighbor.entry.ipAddress = nextHopAddr := key_of_lookup hlookup
    exact ⟨line, hline, hcomment, neighbor, has, hifname, haddr⟩
  · rintro ⟨line, hline, hcomment, neighbor, has, hifname, rfl⟩
    have hneighbor := (mem_neighborsOf_said hname).mpr ⟨line, hline, hcomment, has, hifname⟩
    rw [Option.isSome_iff_ne_none, ne_eq, lookup_eq_none, not_forall]
    exact ⟨_, fun habsent ↦ absurd rfl (habsent (mem_entriesOf.mpr ⟨_, hneighbor, rfl⟩))⟩

/-- The second neighbour, whose line has no comment, is not found. -/
theorem findNextHopInterface_of_file_exampleLines :
    let x : LnxInterface := ⟨['i'], 0x0a000001, 24, 0x7f000001, 5000⟩
    let nextHopAddr : Ipv4Address := { addr := 0x0a000003 }
    (((said exampleLines).linkInterface x).findNextHopInterface nextHopAddr).isSome = false ∧
      ((((said exampleLines).linkInterface x).findNextHopInterface nextHopAddr).isSome ↔
        ∃ line ∈ exampleLines, line.comment ≠ [] ∧ ∃ neighbor, line.asNeighbor = some neighbor ∧
          neighbor.ifname = x.name ∧ { addr := neighbor.destAddr } = nextHopAddr) := by
  intro x nextHopAddr
  have hparse : lnxconfigParse (fileText exampleLines) = .ok (said exampleLines) := by
    rw [lnxconfigParse_fileText wf_exampleLines fits_exampleLines, foldl_add_eq_said]
  have hx : x ∈ (said exampleLines).interfaces := by decide
  have hiff := findNextHopInterface_of_file wf_exampleLines fits_exampleLines hparse hx nextHopAddr
  refine ⟨Bool.eq_false_iff.mpr fun hsome ↦ ?_, hiff⟩
  obtain ⟨line, hline, hcomment, neighbor, has, -, haddr⟩ := hiff.mp hsome
  simp only [exampleLines, List.mem_cons, List.not_mem_nil, or_false] at hline
  rcases hline with rfl | rfl | rfl | rfl
  · cases has
  · cases has
  · cases has
    exact absurd haddr (by decide)
  · exact hcomment rfl

/-! ## Nodes -/

/-- A node with the interfaces. -/
def nodeOf (interfaces : List InterfaceData) (now : TimePoint) : NetworkNode :=
  (RouterNode.ofLnx interfaces [] now).toNetworkNode

section Nodes

variable {inetAton : String → Option UInt32} {config : LnxConfig} {file : List Char}
  {d : InterfaceData} {ds : List InterfaceData} {now : TimePoint}

theorem nodeOf_append (ds : List InterfaceData) (d : InterfaceData) (now : TimePoint) :
    nodeOf (ds ++ [d]) now = {
      interfaces := (nodeOf ds now).interfaces ++ [{
        name := d.name, ipAddress := d.cidr.address, neighborInterfaces := d.neighborIpAddrs }]
      routingTable := (nodeOf ds now).routingTable.addLocalRoute d.cidr ds.length now } := by
  simp only [nodeOf, RouterNode.toNetworkNode, RouterNode.ofLnx, List.map_append, List.map_cons,
    List.map_nil, List.zipIdx_append, List.foldl_append, List.zipIdx_cons, List.zipIdx_nil,
    List.foldl_cons, List.foldl_nil, Nat.zero_add]

theorem isMyIpAddress_nodeOf {addr : Ipv4Address} :
    (nodeOf ds now).isMyIpAddress addr = true ↔ ∃ d ∈ ds, d.cidr.address = addr := by
  simp only [NetworkNode.isMyIpAddress, nodeOf, RouterNode.toNetworkNode, RouterNode.ofLnx,
    List.any_map, List.any_eq_true, Function.comp_apply, decide_eq_true_eq]

theorem any_name_nodeOf {name : String} :
    (nodeOf ds now).interfaces.any (·.name = name) = true ↔ ∃ d ∈ ds, d.name = name := by
  simp only [nodeOf, RouterNode.toNetworkNode, RouterNode.ofLnx, List.any_map, List.any_eq_true,
    Function.comp_apply, decide_eq_true_eq]

/-- An interface is added if both its address and its name are new. -/
theorem addInterface_nodeOf
    (hnew : (¬∃ d' ∈ ds, d'.cidr.address = d.cidr.address) ∧ ¬∃ d' ∈ ds, d'.name = d.name) :
    (nodeOf ds now).addInterface now d = .ok (nodeOf (ds ++ [d]) now) := by
  obtain ⟨haddress, hname⟩ := hnew
  have hlength : (nodeOf ds now).interfaces.length = ds.length := List.length_map _
  rw [← isMyIpAddress_nodeOf] at haddress
  rw [← any_name_nodeOf] at hname
  rw [NetworkNode.addInterface, if_neg haddress, if_neg hname, nodeOf_append, hlength]

variable (now) in
theorem addInterface_nodeOf_eq_error
    (hold : (∃ d' ∈ ds, d'.cidr.address = d.cidr.address) ∨ ∃ d' ∈ ds, d'.name = d.name) :
    ∃ e, (nodeOf ds now).addInterface now d = .error e := by
  rw [← isMyIpAddress_nodeOf, ← any_name_nodeOf] at hold
  rw [NetworkNode.addInterface]
  split
  · exact ⟨_, rfl⟩
  · rename_i haddress
    rw [if_pos (hold.resolve_left haddress)]
    exact ⟨_, rfl⟩

/-- The prefixes are those of an address, no two interfaces share an address or a name, and the
sockets are opened one after the other. -/
structure SetsUp (openSocket : OpenSocket) (config : LnxConfig) (xs : List LnxInterface) :
    Prop where
  prefixLen : ∀ x ∈ xs, 0 ≤ x.prefixLen ∧ x.prefixLen ≤ 32
  addresses : (xs.map LnxInterface.assignedIp).Nodup
  names : (xs.map LnxInterface.name).Nodup
  sockets : ∀ bound addr, bound ++ [addr] <+: xs.map config.sockAddr →
    openSocket bound addr = .ok ()

variable {openSocket : OpenSocket}

theorem SetsUp.nil : SetsUp openSocket config [] := by
  refine ⟨by simp, List.nodup_nil, List.nodup_nil, ?_⟩
  intro bound addr hpre
  exact absurd (List.prefix_nil.mp hpre) (by simp)

theorem setsUp_append_singleton {xs : List LnxInterface} {x : LnxInterface} :
    SetsUp openSocket config (xs ++ [x]) ↔
      SetsUp openSocket config xs ∧ (0 ≤ x.prefixLen ∧ x.prefixLen ≤ 32) ∧
        ((¬∃ y ∈ xs, y.assignedIp = x.assignedIp) ∧ ¬∃ y ∈ xs, y.name = x.name) ∧
          openSocket (xs.map config.sockAddr) (config.sockAddr x) = .ok () := by
  have hsplit : ∀ {α : Type} (f : LnxInterface → α),
      ((xs ++ [x]).map f).Nodup ↔ (xs.map f).Nodup ∧ ¬∃ y ∈ xs, f y = f x := by
    intro α f
    rw [List.map_append, List.map_singleton, List.nodup_append]
    simp only [List.nodup_singleton, true_and, List.mem_singleton, forall_eq, List.forall_mem_map,
      ne_eq, not_exists, not_and]
  have hsockets : (∀ bound addr, bound ++ [addr] <+: (xs ++ [x]).map config.sockAddr →
        openSocket bound addr = .ok ()) ↔
      (∀ bound addr, bound ++ [addr] <+: xs.map config.sockAddr →
        openSocket bound addr = .ok ()) ∧
          openSocket (xs.map config.sockAddr) (config.sockAddr x) = .ok () := by
    simp only [List.map_append, List.map_singleton, List.prefix_concat_iff]
    constructor
    · intro h
      exact ⟨fun bound addr hpre ↦ h bound addr (.inr hpre), h _ _ (.inl rfl)⟩
    · rintro ⟨h, hlast⟩ bound addr (heq | hpre)
      · obtain ⟨rfl, haddr⟩ := List.append_inj' heq rfl
        rw [List.singleton_inj.mp haddr]
        exact hlast
      · exact h bound addr hpre
  constructor
  · rintro ⟨hlength, haddresses, hnames, hopen⟩
    rw [List.forall_mem_append, List.forall_mem_singleton] at hlength
    obtain ⟨haddresses, haddress⟩ := (hsplit _).mp haddresses
    obtain ⟨hnames, hname⟩ := (hsplit _).mp hnames
    obtain ⟨hopen, hlast⟩ := hsockets.mp hopen
    exact ⟨⟨hlength.1, haddresses, hnames, hopen⟩, hlength.2, ⟨haddress, hname⟩, hlast⟩
  · rintro ⟨⟨hlength, haddresses, hnames, hopen⟩, hx, ⟨haddress, hname⟩, hlast⟩
    refine ⟨?_, (hsplit _).mpr ⟨haddresses, haddress⟩, (hsplit _).mpr ⟨hnames, hname⟩,
      hsockets.mpr ⟨hopen, hlast⟩⟩
    rw [List.forall_mem_append, List.forall_mem_singleton]
    exact ⟨hlength, hx⟩

variable (config) in
theorem exists_address_interfaceData {xs : List LnxInterface} {x : LnxInterface} :
    (∃ d ∈ xs.map config.interfaceData, d.cidr.address = (config.interfaceData x).cidr.address) ↔
      ∃ y ∈ xs, y.assignedIp = x.assignedIp := by
  simp [LnxConfig.interfaceData, LnxInterface.cidr]

variable (config) in
theorem exists_name_interfaceData {xs : List LnxInterface} {x : LnxInterface} :
    (∃ d ∈ xs.map config.interfaceData, d.name = (config.interfaceData x).name) ↔
      ∃ y ∈ xs, y.name = x.name := by
  simp [LnxConfig.interfaceData, String.ofList_inj]

variable (config now) in
/-- The node of the interfaces, with their sockets. -/
def initializing (xs : List LnxInterface) : Initializing where
  node := nodeOf (xs.map config.interfaceData) now
  bound := xs.map config.sockAddr

/-- A pass of the loop of `initialize_` adds an interface that fits to those before. -/
theorem addIface_of_setsUp (haton : ReadsDottedQuads inetAton) {done : List LnxInterface}
    {x : LnxInterface} (h : SetsUp openSocket config (done ++ [x])) :
    addIface inetAton openSocket now (initializing config now done)
        (createInterface config.maps x) =
      .ok (initializing config now (done ++ [x])) := by
  obtain ⟨-, hlength, ⟨haddress, hname⟩, hopen⟩ := setsUp_append_singleton.mp h
  rw [← exists_address_interfaceData config] at haddress
  rw [← exists_name_interfaceData config] at hname
  rw [addIface, makeInterface_eq haton hlength.1 hlength.2]
  simp only [initializing, hopen, Except.ok_bind, LnxConfig.linkInterface,
    addInterface_nodeOf ⟨haddress, hname⟩, List.map_append, List.map_singleton]
  rfl

variable (now) in
/-- It throws for one that does not. -/
theorem addIface_of_not_setsUp (haton : ReadsDottedQuads inetAton) {done : List LnxInterface}
    {x : LnxInterface} (hdone : SetsUp openSocket config done)
    (h : ¬SetsUp openSocket config (done ++ [x])) :
    ∃ e, addIface inetAton openSocket now (initializing config now done)
      (createInterface config.maps x) = .error e := by
  by_cases hlength : 0 ≤ x.prefixLen ∧ x.prefixLen ≤ 32
  · rw [addIface, makeInterface_eq haton hlength.1 hlength.2]
    cases hopen : openSocket (initializing config now done).bound (config.sockAddr x) with
    | error call => exact ⟨_, rfl⟩
    | ok =>
        have hold : (∃ y ∈ done, y.assignedIp = x.assignedIp) ∨ ∃ y ∈ done, y.name = x.name := by
          by_contra hnew
          rw [not_or] at hnew
          exact h (setsUp_append_singleton.mpr ⟨hdone, hlength, hnew, hopen⟩)
        rw [← exists_address_interfaceData config, ← exists_name_interfaceData config] at hold
        obtain ⟨e, he⟩ := addInterface_nodeOf_eq_error now hold
        simp only [Except.ok_bind, initializing, LnxConfig.linkInterface, he]
        exact ⟨_, rfl⟩
  · obtain ⟨e, he⟩ := makeInterface_of_not inetAton config hlength openSocket
      (initializing config now done).bound
    rw [addIface, he]
    exact ⟨_, rfl⟩

theorem SetsUp.of_append {xs ys : List LnxInterface} (h : SetsUp openSocket config (xs ++ ys)) :
    SetsUp openSocket config xs := by
  obtain ⟨hlength, haddresses, hnames, hopen⟩ := h
  rw [List.map_append] at haddresses hnames
  refine ⟨(List.forall_mem_append.mp hlength).1, haddresses.of_append_left,
    hnames.of_append_left, ?_⟩
  intro bound addr hpre
  apply hopen bound addr
  rw [List.map_append]
  exact hpre.trans (List.prefix_append _ _)

variable (now) in
theorem foldlM_addIface (haton : ReadsDottedQuads inetAton) (xs done : List LnxInterface)
    (hdone : SetsUp openSocket config done) :
    let r := (xs.map (createInterface config.maps)).foldlM (addIface inetAton openSocket now)
      (initializing config now done)
    (SetsUp openSocket config (done ++ xs) → r = .ok (initializing config now (done ++ xs))) ∧
      (¬SetsUp openSocket config (done ++ xs) → ∃ e, r = .error e) := by
  induction xs generalizing done with
  | nil =>
      simp only [List.append_nil]
      exact ⟨fun _ ↦ rfl, fun hnot ↦ absurd hdone hnot⟩
  | cons x xs ih =>
      have hassoc : done ++ x :: xs = (done ++ [x]) ++ xs := by simp
      rw [List.map_cons, List.foldlM_cons, hassoc]
      by_cases hx : SetsUp openSocket config (done ++ [x])
      · rw [addIface_of_setsUp haton hx, Except.ok_bind]
        exact ih (done ++ [x]) hx
      · obtain ⟨e, he⟩ := addIface_of_not_setsUp now haton hdone hx
        rw [he, Except.error_bind]
        exact ⟨fun h ↦ absurd h.of_append hx, fun _ ↦ ⟨e, rfl⟩⟩

variable (config now) in
/-- `initialize_` makes the node of the interfaces, or throws if they do not fit together. -/
theorem initializeNode_createInterface (haton : ReadsDottedQuads inetAton)
    (routes : List RoutingData) (ripNeighbors : List String) :
    let interfaces := config.interfaces.map (createInterface config.maps)
    let r := initializeNode inetAton openSocket { interfaces, routes, ripNeighbors } now
    (SetsUp openSocket config config.interfaces →
        r = .ok (nodeOf (config.interfaces.map config.interfaceData) now)) ∧
      (¬SetsUp openSocket config config.interfaces → ∃ e, r = .error e) := by
  have hstart : ({} : Initializing) = initializing config now [] := rfl
  obtain ⟨hok, herror⟩ := foldlM_addIface now haton config.interfaces [] .nil
  simp only [initializeNode, hstart]
  constructor
  · intro hsetsUp
    rw [hok hsetsUp]
    rfl
  · intro hnot
    obtain ⟨e, he⟩ := herror hnot
    rw [he]
    exact ⟨e, rfl⟩

namespace LnxConfig

variable (config now)

/-- The router that the file describes. -/
def routerNode : RouterNode :=
  .ofLnx (config.interfaces.map config.interfaceData)
    (config.ripNeighbors.map fun addr ↦ { addr }) now

/-- The static routes of the file whose prefix is that of an address. -/
def routes : List (Subnet × Ipv4Address) :=
  config.staticRoutes.filterMap fun route ↦
    if 0 ≤ route.prefixLen ∧ route.prefixLen ≤ 32 then some ({
      address := { addr := route.networkAddr }, maskLength := .ofNat 33 route.prefixLen.toNat },
      { addr := route.nextHop })
    else none

/-- The host that the file describes. -/
def hostNode : NetworkNode :=
  let n := nodeOf (config.interfaces.map config.interfaceData) now
  { n with
    routingTable := config.routes.foldl (fun t route ↦ t.addStaticRoute route.1 route.2 now)
      n.routingTable }

end LnxConfig

theorem parseLnx_of_parse (hparse : lnxconfigParse file = .ok config) :
    parseLnx {} file = .ok ({
      interfaces := config.interfaces.map (createInterface config.maps)
      routes := config.staticRoutes.map createStaticRoute
      ripNeighbors := config.ripNeighbors.map createRipNeighbor }, config.maps) := by
  rw [parseLnx, hparse]
  rfl

theorem mapM_ofString (haton : ReadsDottedQuads inetAton) (addrs : List UInt32) :
    (addrs.map createRipNeighbor).mapM (fun ripNeighbor ↦
      ofStd (Ipv4Address.ofString inetAton ripNeighbor)) =
        .ok (addrs.map fun addr ↦ { addr }) := by
  induction addrs with
  | nil => rfl
  | cons addr addrs ih =>
      rw [List.map_cons, List.mapM_cons, ih, createRipNeighbor, ofString_addrString haton]
      rfl

theorem foldlM_addStaticRoute (haton : ReadsDottedQuads inetAton)
    (staticRoutes : List LnxStaticRoute) (n : NetworkNode) :
    (staticRoutes.map createStaticRoute).foldlM
        (fun n route ↦ addStaticRoute inetAton n route now) n =
      .ok { n with
        routingTable := (LnxConfig.routes { staticRoutes }).foldl
          (fun t route ↦ t.addStaticRoute route.1 route.2 now) n.routingTable } := by
  induction staticRoutes generalizing n with
  | nil => rfl
  | cons route staticRoutes ih =>
      rw [List.map_cons, List.foldlM_cons, createStaticRoute, addStaticRoute,
        ofString_addrString haton]
      by_cases hlength : 0 ≤ route.prefixLen ∧ route.prefixLen ≤ 32
      · have hval : (Fin.ofNat 33 route.prefixLen.toNat).val = route.prefixLen.toNat :=
          Nat.mod_eq_of_lt (by omega)
        have hparse := parseCidr_cidrString haton route.networkAddr
          (.ofNat 33 route.prefixLen.toNat)
        rw [hval, Int.toNat_of_nonneg hlength.1] at hparse
        simp only [ofStd, Except.mapError, Except.ok_bind, hparse, LnxConfig.routes,
          List.filterMap_cons, if_pos hlength, List.foldl_cons]
        exact ih _
      · obtain ⟨msg, hparse⟩ := parseCidr_cidrString_of_not inetAton route.networkAddr hlength
        simp only [ofStd, Except.mapError, Except.ok_bind, hparse, LnxConfig.routes,
          List.filterMap_cons, if_neg hlength]
        exact ih _

theorem nodes_of_setsUp (haton : ReadsDottedQuads inetAton)
    (hparse : lnxconfigParse file = .ok config)
    (hsetsUp : SetsUp openSocket config config.interfaces) :
    routerNode inetAton openSocket file now = .ok (config.routerNode now) ∧
      hostNode inetAton openSocket file now = .ok (config.hostNode now) := by
  have hdata := parseLnx_of_parse hparse
  have hnode := (initializeNode_createInterface config now haton
    (config.staticRoutes.map createStaticRoute)
    (config.ripNeighbors.map createRipNeighbor)).1 hsetsUp
  constructor
  · rw [routerNode, hdata]
    simp only [ofFile, Except.mapError, Except.ok_bind, hnode, mapM_ofString haton]
    rfl
  · rw [hostNode, hdata]
    simp only [ofFile, Except.mapError, Except.ok_bind, hnode, foldlM_addStaticRoute haton]
    rfl

/-- A file that is read sets up a router and a host exactly if its interfaces fit together, and
then those that it describes. -/
theorem nodes_of_config (haton : ReadsDottedQuads inetAton)
    (hparse : lnxconfigParse file = .ok config) :
    (SetsUp openSocket config config.interfaces →
        routerNode inetAton openSocket file now = .ok (config.routerNode now) ∧
          hostNode inetAton openSocket file now = .ok (config.hostNode now)) ∧
      (¬SetsUp openSocket config config.interfaces →
        (∃ e, routerNode inetAton openSocket file now = .error e) ∧
          ∃ e, hostNode inetAton openSocket file now = .error e) := by
  refine ⟨nodes_of_setsUp haton hparse, ?_⟩
  intro hnot
  have hdata := parseLnx_of_parse hparse
  obtain ⟨e, he⟩ := (initializeNode_createInterface config now haton
    (config.staticRoutes.map createStaticRoute)
    (config.ripNeighbors.map createRipNeighbor)).2 hnot
  constructor
  · refine ⟨e, ?_⟩
    rw [routerNode, hdata]
    simp only [ofFile, Except.mapError, Except.ok_bind, he, Except.error_bind]
  · refine ⟨e, ?_⟩
    rw [hostNode, hdata]
    simp only [ofFile, Except.mapError, Except.ok_bind, he, Except.error_bind]

/-- A system where only the node has sockets: an address is in use if one of them is bound to it, or
to the port of any address. -/
def bindUnused : OpenSocket := fun bound addr ↦
  if addr.port ≠ 0 ∧ bound.any fun used ↦
      used.port = addr.port ∧ (used.addr = addr.addr ∨ used.addr = 0 ∨ addr.addr = 0) then
    .error "bind()"
  else .ok ()

theorem nodes_of_config_exampleLines :
    SetsUp bindUnused (said exampleLines) (said exampleLines).interfaces ∧
      routerNode (fun s ↦ inetPton s.toList) bindUnused (fileText exampleLines) 0 =
        .ok ((said exampleLines).routerNode 0) ∧
      hostNode (fun s ↦ inetPton s.toList) bindUnused (fileText exampleLines) 0 =
        .ok ((said exampleLines).hostNode 0) := by
  have hparse : lnxconfigParse (fileText exampleLines) = .ok (said exampleLines) := by
    rw [lnxconfigParse_fileText wf_exampleLines fits_exampleLines, foldl_add_eq_said]
  have hinterfaces : (said exampleLines).interfaces =
      [] ++ [⟨['i'], 0x0a000001, 24, 0x7f000001, 5000⟩] := rfl
  have hsetsUp : SetsUp bindUnused (said exampleLines) (said exampleLines).interfaces := by
    rw [hinterfaces, setsUp_append_singleton]
    exact ⟨.nil, by decide, by simp, rfl⟩
  exact ⟨hsetsUp, (nodes_of_config readsDottedQuads_inetPton hparse).1 hsetsUp⟩

end Nodes

end Tns.Lnx
