import Mathlib.Data.List.TakeWhile
import Tns.Ip.Address

/-!
# Reading a subnet from text

`parseCidr` reads `addr/len`.  The length goes through `std::stoi`, which reads
a number at the start of its argument: it skips blanks, takes a sign, and leaves
alone what follows the digits.  A byte of a `std::string` is the character of its
number, and `inet_aton` is a parameter.
-/

namespace Tns.Ip

/-- The exceptions of the standard library that `parseCidr` meets. -/
inductive StdException where
  | invalidArgument (what : String)
  | outOfRange (what : String)
  deriving DecidableEq, Repr

/-- The bytes of a string up to its first zero, as a function of C reads it. -/
def cStr (s : String) : String := String.ofList (s.toList.takeWhile fun c ↦ c.toNat != 0)

/-- `std::string::find` of one character. -/
def findChar (s : String) (c : Char) : Option ℕ := s.toList.findIdx? fun c' ↦ c' == c

/-- `std::string::substr`. -/
def substr (s : String) (pos count : ℕ) : Except StdException String :=
  if s.toList.length < pos then .error (.outOfRange "basic_string::substr")
  else .ok (String.ofList ((s.toList.drop pos).take count))

/-! ## `std::stoi` -/

/-- `isspace`, in the C locale. -/
def isSpace (c : Char) : Bool := c.toNat == 32 || (9 ≤ c.toNat && c.toNat ≤ 13)

/-- Whether a number is negative, and what follows its sign. -/
def strtolSign : List Char → Bool × List Char
  | '-' :: cs => (true, cs)
  | '+' :: cs => (false, cs)
  | cs => (false, cs)

/-- `std::strtol` to the base 10, before it keeps its result in the range of a `long`. -/
def strtol (str : List Char) : Option ℤ :=
  let (negative, cs) := strtolSign (str.dropWhile isSpace)
  let digits := cs.takeWhile Char.isDigit
  if digits = [] then none
  else
    let n : ℤ := Nat.ofDigitChars 10 digits 0
    some (if negative then -n else n)

/-- `std::stoi`; what follows the number is left alone. -/
def stoi (str : String) : Except StdException ℤ :=
  match strtol str.toList with
  | none => .error (.invalidArgument "stoi")
  | some n => if -2 ^ 31 ≤ n ∧ n < 2 ^ 31 then .ok n else .error (.outOfRange "stoi")

/-! ## `parseCidr` -/

section ParseCidr

variable (inetAton : String → Option UInt32)

/-- The constructor of `Ipv4Address` from a string, with the address in host byte order. -/
def Ipv4Address.ofString (addr : String) : Except StdException Ipv4Address :=
  match inetAton (cStr addr) with
  | some a => .ok { addr := a }
  | none => .error
      (.invalidArgument ("Ipv4Address::Ipv4Address: Invalid IPv4 address " ++ cStr addr))

/-- The second `try` block of `parseCidr`. -/
def parseMaskLength (cidr : String) (slashPos : ℕ) (address : Ipv4Address) :
    Except StdException (Except String Subnet) := do
  let maskLen ← stoi (← substr cidr (slashPos + 1) cidr.toList.length)
  if h : maskLen < 0 ∨ 32 < maskLen.toNat then
    return .error ("parseCidr(): Invalid CIDR " ++ cidr)
  else
    return .ok { address, maskLength := ⟨maskLen.toNat, by omega⟩ }

/-- `parseCidr`.  The outer error is an exception that leaves the function. -/
def parseCidr (cidr : String) : Except StdException (Except String Subnet) := do
  match findChar cidr '/' with
  | none => return .error ("parseCidr(): Invalid input CIDR " ++ cidr)
  | some slashPos =>
      let addrStr ← substr cidr 0 slashPos
      match Ipv4Address.ofString inetAton addrStr with
      | .error (.invalidArgument _) => return .error ("parseCidr(): Invalid address " ++ addrStr)
      | .error e => .error e
      | .ok address =>
          match parseMaskLength cidr slashPos address with
          | .ok r => return r
          | .error _ =>
              let suffix ← substr cidr (slashPos + 1) cidr.toList.length
              return .error ("parseCidr(): Invalid mask length " ++ suffix)

end ParseCidr

/-! ## What `std::stoi` reads -/

/-- `str` is blanks, a sign or none, a longest run of digits, and the rest. -/
structure Numeral (str blanks sign digits rest : List Char) : Prop where
  split : str = blanks ++ (sign ++ (digits ++ rest))
  blanks : ∀ c ∈ blanks, isSpace c = true
  sign : sign = [] ∨ sign = ['+'] ∨ sign = ['-']
  nonempty : digits ≠ []
  digits : ∀ c ∈ digits, c.isDigit = true
  rest : ∀ c ∈ rest.head?, c.isDigit = false

def signedValue (sign digits : List Char) : ℤ :=
  if sign = ['-'] then -(Nat.ofDigitChars 10 digits 0 : ℤ) else Nat.ofDigitChars 10 digits 0

section Numerals

variable {str blanks sign digits rest : List Char}

theorem takeWhile_append_of_head {p : Char → Bool} (h : ∀ c ∈ digits, p c = true)
    (hrest : ∀ c ∈ rest.head?, p c = false) : (digits ++ rest).takeWhile p = digits := by
  rw [List.takeWhile_append_of_pos h]
  cases rest with
  | nil => simp
  | cons c rest =>
      have hc := hrest c rfl
      rw [List.takeWhile_cons_of_neg (by simp [hc]), List.append_nil]

theorem dropWhile_append_of_head {p : Char → Bool} (h : ∀ c ∈ blanks, p c = true)
    (hrest : ∀ c ∈ rest.head?, p c = false) : (blanks ++ rest).dropWhile p = rest := by
  rw [List.dropWhile_append_of_pos h]
  cases rest with
  | nil => rfl
  | cons c rest =>
      have hc := hrest c rfl
      exact List.dropWhile_cons_of_neg (by simp [hc])

theorem not_isSpace_of_isDigit {c : Char} (h : c.isDigit = true) : isSpace c = false := by
  simp only [Char.isDigit, Bool.and_eq_true, decide_eq_true_eq] at h
  obtain ⟨hlo, hhi⟩ := h
  have hlo' : 48 ≤ c.toNat := hlo
  simp only [isSpace, Bool.or_eq_false_iff, Bool.and_eq_false_iff, beq_eq_false_iff_ne,
    decide_eq_false_iff_not]
  omega

theorem strtolSign_of_isDigit {c : Char} (cs : List Char) (h : c.isDigit = true) :
    strtolSign (c :: cs) = (false, c :: cs) := by
  unfold strtolSign
  split
  · rename_i heq
    obtain ⟨rfl, -⟩ := List.cons.inj heq
    cases h
  · rename_i heq
    obtain ⟨rfl, -⟩ := List.cons.inj heq
    cases h
  · rfl

theorem Numeral.strtol_eq (h : Numeral str blanks sign digits rest) :
    strtol str = some (signedValue sign digits) := by
  obtain ⟨rfl, hblanks, hsign, hne, hdigits, hrest⟩ := h
  obtain ⟨c, cs, rfl⟩ := List.exists_cons_of_ne_nil hne
  have hc : c.isDigit = true := hdigits c List.mem_cons_self
  have htake : (c :: cs ++ rest).takeWhile Char.isDigit = c :: cs :=
    takeWhile_append_of_head hdigits hrest
  have hhead : ∀ d ∈ (sign ++ (c :: cs ++ rest)).head?, isSpace d = false := by
    rcases hsign with rfl | rfl | rfl
    · intro d hd
      obtain rfl : c = d := by simpa using hd
      exact not_isSpace_of_isDigit hc
    · intro d hd
      obtain rfl : '+' = d := by simpa using hd
      rfl
    · intro d hd
      obtain rfl : '-' = d := by simpa using hd
      rfl
  rw [strtol, dropWhile_append_of_head hblanks hhead]
  rcases hsign with rfl | rfl | rfl
  · have hsigned := strtolSign_of_isDigit (cs ++ rest) hc
    simp only [List.nil_append, List.cons_append, hsigned] at htake ⊢
    simp [htake, signedValue]
  · simp only [List.singleton_append, strtolSign, htake]
    simp [signedValue]
  · simp only [List.singleton_append, strtolSign, htake]
    simp [signedValue]

theorem strtolSign_split (str : List Char) :
    ∃ sign, str = sign ++ (strtolSign str).2 ∧
      (sign = [] ∨ sign = ['+'] ∨ sign = ['-']) ∧ ((strtolSign str).1 = true ↔ sign = ['-']) := by
  unfold strtolSign
  split
  · exact ⟨['-'], rfl, .inr (.inr rfl), by simp⟩
  · exact ⟨['+'], rfl, .inr (.inl rfl), by simp⟩
  · exact ⟨[], rfl, .inl rfl, by simp⟩

theorem exists_numeral {n : ℤ} (h : strtol str = some n) :
    ∃ blanks sign digits rest, Numeral str blanks sign digits rest ∧
      n = signedValue sign digits := by
  obtain ⟨sign, hsplit, hsign, hneg⟩ := strtolSign_split (str.dropWhile isSpace)
  generalize hcs : (strtolSign (str.dropWhile isSpace)).2 = cs at hsplit
  generalize hnegative : (strtolSign (str.dropWhile isSpace)).1 = negative at hneg
  have hpair : strtolSign (str.dropWhile isSpace) = (negative, cs) := Prod.ext hnegative hcs
  simp only [strtol, hpair] at h
  split at h
  · cases h
  rename_i hne
  refine ⟨str.takeWhile isSpace, sign, cs.takeWhile Char.isDigit, cs.dropWhile Char.isDigit,
    ⟨?_, ?_, hsign, hne, ?_, ?_⟩, ?_⟩
  · rw [List.takeWhile_append_dropWhile, ← hsplit, List.takeWhile_append_dropWhile]
  · intro c hc
    exact List.mem_takeWhile_imp hc
  · intro c hc
    exact List.mem_takeWhile_imp hc
  · intro c hc
    have hnot := List.head?_dropWhile_not Char.isDigit cs
    rw [Option.mem_def.mp hc] at hnot
    simpa using hnot
  · rw [← Option.some.inj h, signedValue]
    by_cases hminus : sign = ['-']
    · rw [if_pos (hneg.mpr hminus), if_pos hminus]
    · rw [if_neg (mt hneg.mp hminus), if_neg hminus]

end Numerals

/-! ## What `parseCidr` accepts -/

/-- The first `n` bits of a mask are set, and no other. -/
def Contiguous (mask : UInt32) (n : ℕ) : Prop :=
  ∀ i < 32, mask.toBitVec.getMsbD i = decide (i < n)

theorem Subnet.contiguous_mask (s : Subnet) : Contiguous s.mask s.maskLength := by
  intro i hi
  have hlen := s.maskLength.isLt
  rw [mask]
  by_cases hzero : s.maskLength.val = 0
  · rw [if_pos hzero, hzero]
    simp
  · have hones : (0xffffffff : UInt32).toBitVec = BitVec.allOnes 32 := rfl
    have hshift : (UInt32.ofNat (32 - s.maskLength.val)).toBitVec % 32 =
        BitVec.ofNat 32 (32 - s.maskLength.val) := by
      have hbits : (32 : BitVec 32).toNat = 32 := rfl
      apply BitVec.eq_of_toNat_eq
      simp only [BitVec.toNat_umod, UInt32.toNat_toBitVec, UInt32.toNat_ofNat',
        BitVec.toNat_ofNat, hbits]
      omega
    rw [if_neg hzero, UInt32.toBitVec_shiftLeft, hshift, hones]
    have hnat : (BitVec.ofNat 32 (32 - s.maskLength.val)).toNat = 32 - s.maskLength.val := by
      rw [BitVec.toNat_ofNat]
      omega
    rw [BitVec.shiftLeft_eq', hnat, BitVec.getMsbD_shiftLeft, BitVec.getMsbD_allOnes,
      decide_eq_decide]
    omega

section Grammar

variable {inetAton : String → Option UInt32} {cidr : String} {addr suffix : List Char}

theorem findChar_of_split {c : Char} (hsplit : cidr.toList = addr ++ c :: suffix)
    (hfirst : c ∉ addr) : findChar cidr c = some addr.length := by
  rw [findChar, hsplit]
  clear hsplit
  induction addr with
  | nil => simp [List.findIdx?_cons]
  | cons d addr ih =>
      rw [List.mem_cons, not_or] at hfirst
      simp [List.findIdx?_cons, ih hfirst.2, Ne.symm hfirst.1]

theorem findChar_of_notMem {c : Char} (h : c ∉ cidr.toList) : findChar cidr c = none := by
  rw [findChar, List.findIdx?_eq_none_iff]
  intro d hd
  exact beq_eq_false_iff_ne.mpr fun heq ↦ h (heq ▸ hd)

theorem substr_addr (hsplit : cidr.toList = addr ++ '/' :: suffix) :
    substr cidr 0 addr.length = .ok (String.ofList addr) := by
  rw [substr, if_neg (Nat.not_lt_zero _), hsplit, List.drop_zero, List.take_left]

theorem substr_suffix (hsplit : cidr.toList = addr ++ '/' :: suffix) :
    substr cidr (addr.length + 1) cidr.toList.length = .ok (String.ofList suffix) := by
  have hdrop : cidr.toList.drop (addr.length + 1) = suffix := by
    rw [hsplit, ← List.drop_drop, List.drop_left, List.drop_one, List.tail_cons]
  have hlen := congrArg List.length hsplit
  rw [List.length_append, List.length_cons] at hlen
  rw [substr, if_neg (by omega), hdrop, List.take_of_length_le (by omega)]

/-- What `stoi` makes of the text behind the slash, if it is the length of a mask. -/
def readMaskLength (suffix : List Char) : Option (Fin 33) :=
  match strtol suffix with
  | none => none
  | some n => if h : n < 0 ∨ 32 < n.toNat then none else some ⟨n.toNat, by omega⟩

theorem readMaskLength_eq_some {len : Fin 33} :
    readMaskLength suffix = some len ↔ strtol suffix = some (len.val : ℤ) := by
  have hlt := len.isLt
  rw [readMaskLength]
  split
  · rename_i hnone
    simp [hnone]
  · rename_i n hn
    rw [hn, Option.some.injEq]
    split
    · rename_i hout
      constructor
      · nofun
      · rintro rfl
        omega
    · rename_i hin
      rw [Option.some.injEq, Fin.ext_iff]
      simp only
      omega

/-- The second `try` block returns a subnet, an error, or an exception of `stoi`. -/
theorem parseMaskLength_cases (hsplit : cidr.toList = addr ++ '/' :: suffix)
    (address : Ipv4Address) :
    (∃ len, readMaskLength suffix = some len ∧
        parseMaskLength cidr addr.length address = .ok (.ok { address, maskLength := len })) ∨
      readMaskLength suffix = none ∧
        ((∃ msg, parseMaskLength cidr addr.length address = .ok (.error msg)) ∨
          ∃ e, parseMaskLength cidr addr.length address = .error e) := by
  have hlist : (String.ofList suffix).toList = suffix := String.toList_ofList
  simp only [parseMaskLength, substr_suffix hsplit, Except.ok_bind, stoi, hlist, readMaskLength]
  cases hstr : strtol suffix with
  | none => exact .inr ⟨rfl, .inr ⟨_, rfl⟩⟩
  | some n =>
      by_cases hrange : -2 ^ 31 ≤ n ∧ n < 2 ^ 31
      · simp only [if_pos hrange, Except.ok_bind]
        by_cases hout : n < 0 ∨ 32 < n.toNat
        · simp only [dif_pos hout]
          exact .inr ⟨trivial, .inl ⟨_, rfl⟩⟩
        · simp only [dif_neg hout]
          exact .inl ⟨_, rfl, rfl⟩
      · have hout : n < 0 ∨ 32 < n.toNat := by omega
        simp only [if_neg hrange, dif_pos hout]
        exact .inr ⟨trivial, .inr ⟨_, rfl⟩⟩

/-- `parseCidr` throws nothing: it returns the subnet of an accepted address and a length that
`stoi` takes for one of a mask, and an error otherwise. -/
theorem parseCidr_of_split (inetAton : String → Option UInt32)
    (hsplit : cidr.toList = addr ++ '/' :: suffix) (hfirst : '/' ∉ addr) :
    (∃ a len, inetAton (cStr (String.ofList addr)) = some a ∧ readMaskLength suffix = some len ∧
        parseCidr inetAton cidr = .ok (.ok { address := { addr := a }, maskLength := len })) ∨
      (inetAton (cStr (String.ofList addr)) = none ∨ readMaskLength suffix = none) ∧
        ∃ msg, parseCidr inetAton cidr = .ok (.error msg) := by
  simp only [parseCidr, findChar_of_split hsplit hfirst, substr_addr hsplit, Except.ok_bind,
    Ipv4Address.ofString]
  cases haton : inetAton (cStr (String.ofList addr)) with
  | none => exact .inr ⟨.inl rfl, _, rfl⟩
  | some a =>
      rcases parseMaskLength_cases hsplit { addr := a } with ⟨len, hlen, hparse⟩ |
        ⟨hlen, ⟨msg, hparse⟩ | ⟨e, hparse⟩⟩ <;> simp only [hparse]
      · exact .inl ⟨a, len, rfl, hlen, rfl⟩
      · exact .inr ⟨.inr hlen, _, rfl⟩
      · refine .inr ⟨.inr hlen, "parseCidr(): Invalid mask length " ++ String.ofList suffix, ?_⟩
        rw [substr_suffix hsplit]
        rfl

variable (inetAton cidr)

/-- `cidr` is an address that `inet_aton` takes, a slash, and a number from 0 to 32 in decimal
digits: it denotes `subnet`. -/
def Denotes (subnet : Subnet) : Prop :=
  ∃ addr digits, cidr.toList = addr ++ '/' :: digits ∧ '/' ∉ addr ∧
    inetAton (cStr (String.ofList addr)) = some subnet.address.addr ∧ subnet.address.port = 0 ∧
    digits ≠ [] ∧ (∀ c ∈ digits, c.isDigit = true) ∧
    Nat.ofDigitChars 10 digits 0 = subnet.maskLength

/-- `parseCidr` accepts `cidr` if and only if it denotes a subnet, returns this subnet with its
contiguous mask, and returns an error otherwise. -/
structure AcceptsGrammar : Prop where
  accepts : ∀ subnet, parseCidr inetAton cidr = .ok (.ok subnet) ↔ Denotes inetAton cidr subnet
  mask : ∀ subnet, parseCidr inetAton cidr = .ok (.ok subnet) →
    Contiguous subnet.mask subnet.maskLength
  refuses : (∀ subnet, ¬Denotes inetAton cidr subnet) →
    ∃ msg, parseCidr inetAton cidr = .ok (.error msg)

/-- An accepted address, and a number from 0 to 32 that has blanks or a sign before its digits,
or something behind them. -/
def LooselyWritten : Prop :=
  ∃ addr suffix blanks sign digits rest, cidr.toList = addr ++ '/' :: suffix ∧ '/' ∉ addr ∧
    inetAton (cStr (String.ofList addr)) ≠ none ∧ Numeral suffix blanks sign digits rest ∧
    0 ≤ signedValue sign digits ∧ signedValue sign digits ≤ 32 ∧ blanks ++ sign ++ rest ≠ []

theorem exists_split_or_error : (∃ addr suffix, cidr.toList = addr ++ '/' :: suffix ∧ '/' ∉ addr) ∨
    '/' ∉ cidr.toList ∧ ∃ msg, parseCidr inetAton cidr = .ok (.error msg) := by
  by_cases hmem : '/' ∈ cidr.toList
  · exact .inl (List.eq_append_cons_of_mem hmem)
  · refine .inr ⟨hmem, "parseCidr(): Invalid input CIDR " ++ cidr, ?_⟩
    simp only [parseCidr, findChar_of_notMem hmem]
    rfl

theorem parseCidr_ne_throw : ∃ r, parseCidr inetAton cidr = .ok r := by
  rcases exists_split_or_error inetAton cidr with
    ⟨addr, suffix, hsplit, hfirst⟩ | ⟨-, msg, herr⟩
  · rcases parseCidr_of_split inetAton hsplit hfirst with
      ⟨a, len, -, -, hok⟩ | ⟨-, msg, herr⟩
    · exact ⟨_, hok⟩
    · exact ⟨_, herr⟩
  · exact ⟨_, herr⟩

variable {inetAton cidr}

theorem parseCidr_eq_ok_iff {subnet : Subnet} : parseCidr inetAton cidr = .ok (.ok subnet) ↔
    ∃ addr suffix, cidr.toList = addr ++ '/' :: suffix ∧ '/' ∉ addr ∧
      inetAton (cStr (String.ofList addr)) = some subnet.address.addr ∧ subnet.address.port = 0 ∧
      readMaskLength suffix = some subnet.maskLength := by
  constructor
  · intro hok
    rcases exists_split_or_error inetAton cidr with
      ⟨addr, suffix, hsplit, hfirst⟩ | ⟨-, msg, herr⟩
    · rcases parseCidr_of_split inetAton hsplit hfirst with
        ⟨a, len, haton, hlen, hok'⟩ | ⟨-, msg, herr⟩
      · obtain rfl := Except.ok.inj (Except.ok.inj (hok'.symm.trans hok))
        exact ⟨addr, suffix, hsplit, hfirst, haton, rfl, hlen⟩
      · cases herr.symm.trans hok
    · cases herr.symm.trans hok
  · rintro ⟨addr, suffix, hsplit, hfirst, haton, hport, hlen⟩
    rcases parseCidr_of_split inetAton hsplit hfirst with
      ⟨a, len, haton', hlen', hok⟩ | ⟨hnone | hnone, -⟩
    · obtain ⟨⟨addr', port⟩, len'⟩ := subnet
      obtain rfl : a = addr' := Option.some.inj (haton'.symm.trans haton)
      obtain rfl : len = len' := Option.some.inj (hlen'.symm.trans hlen)
      obtain rfl : port = 0 := hport
      exact hok
    · cases hnone.symm.trans haton
    · cases hnone.symm.trans hlen

theorem numeral_of_digits {digits : List Char} (hne : digits ≠ [])
    (hdigits : ∀ c ∈ digits, c.isDigit = true) : Numeral digits [] [] digits [] :=
  ⟨by simp, by simp, .inl rfl, hne, hdigits, by simp⟩

theorem Numeral.eq_nil {blanks sign digits rest : List Char}
    (h : Numeral suffix blanks sign digits rest) (hall : ∀ c ∈ suffix, c.isDigit = true) :
    blanks ++ sign ++ rest = [] := by
  obtain ⟨rfl, hblanks, hsign, -, -, hrest⟩ := h
  simp only [List.mem_append] at hall
  have hblanks' : blanks = [] := by
    cases blanks with
    | nil => rfl
    | cons c blanks =>
        have hspace := hblanks c List.mem_cons_self
        rw [not_isSpace_of_isDigit (hall c (.inl List.mem_cons_self))] at hspace
        cases hspace
  have hsign' : sign = [] := by
    rcases hsign with rfl | rfl | rfl
    · rfl
    · cases hall '+' (.inr (.inl List.mem_cons_self))
    · cases hall '-' (.inr (.inl List.mem_cons_self))
  have hrest' : rest = [] := by
    cases rest with
    | nil => rfl
    | cons c rest =>
        have hnot := hrest c rfl
        rw [hall c (.inr (.inr (.inr List.mem_cons_self)))] at hnot
        cases hnot
  rw [hblanks', hsign', hrest']
  rfl

theorem LooselyWritten.refutes (h : LooselyWritten inetAton cidr) :
    ¬AcceptsGrammar inetAton cidr := by
  obtain ⟨addr, suffix, blanks, sign, digits, rest, hsplit, hfirst, haton, hnum, hlo, hhi,
    hloose⟩ := h
  obtain ⟨a, ha⟩ := Option.ne_none_iff_exists'.mp haton
  have hlen : readMaskLength suffix =
      some ⟨(signedValue sign digits).toNat, by omega⟩ := by
    rw [readMaskLength_eq_some, hnum.strtol_eq]
    simp [Int.toNat_of_nonneg hlo]
  intro hgrammar
  obtain ⟨addr', digits', hsplit', hfirst', -, -, -, hdigits', -⟩ :=
    (hgrammar.accepts { address := { addr := a }, maskLength := _ }).mp
      (parseCidr_eq_ok_iff.mpr ⟨addr, suffix, hsplit, hfirst, ha, rfl, hlen⟩)
  have hpos := (findChar_of_split hsplit hfirst).symm.trans (findChar_of_split hsplit' hfirst')
  obtain ⟨-, heq⟩ := List.append_inj (hsplit.symm.trans hsplit') (Option.some.inj hpos)
  obtain rfl : suffix = digits' := (List.cons.inj heq).2
  exact hloose (hnum.eq_nil hdigits')

/-- `parseCidr` accepts exactly its grammar, but for the strings whose length has blanks or a sign
before its digits, or something behind them. -/
theorem acceptsGrammar_iff (inetAton : String → Option UInt32) (cidr : String) :
    AcceptsGrammar inetAton cidr ↔ ¬LooselyWritten inetAton cidr := by
  refine ⟨fun h hloose ↦ hloose.refutes h, fun h ↦ ?_⟩
  have haccepts : ∀ subnet, parseCidr inetAton cidr = .ok (.ok subnet) ↔
      Denotes inetAton cidr subnet := by
    intro subnet
    rw [parseCidr_eq_ok_iff]
    constructor
    · rintro ⟨addr, suffix, hsplit, hfirst, haton, hport, hlen⟩
      rw [readMaskLength_eq_some] at hlen
      obtain ⟨blanks, sign, digits, rest, hnum, hvalue⟩ := exists_numeral hlen
      have hlt := subnet.maskLength.isLt
      have hpure : blanks ++ sign ++ rest = [] := by
        by_contra hloose
        exact h ⟨addr, suffix, blanks, sign, digits, rest, hsplit, hfirst, by simp [haton], hnum,
          by omega, by omega, hloose⟩
      simp only [List.append_eq_nil_iff] at hpure
      obtain ⟨⟨rfl, rfl⟩, rfl⟩ := hpure
      have hsuffix : suffix = digits := by simpa using hnum.split
      refine ⟨addr, digits, hsuffix ▸ hsplit, hfirst, haton, hport, hnum.nonempty, hnum.digits, ?_⟩
      simp only [signedValue, List.nil_eq, reduceCtorEq, if_false] at hvalue
      omega
    · rintro ⟨addr, digits, hsplit, hfirst, haton, hport, hne, hdigits, hvalue⟩
      refine ⟨addr, digits, hsplit, hfirst, haton, hport, ?_⟩
      rw [readMaskLength_eq_some, (numeral_of_digits hne hdigits).strtol_eq]
      simp [signedValue, hvalue]
  refine ⟨haccepts, fun subnet _ ↦ subnet.contiguous_mask, fun hnone ↦ ?_⟩
  obtain ⟨r, hr⟩ := parseCidr_ne_throw inetAton cidr
  cases r with
  | error msg => exact ⟨msg, hr⟩
  | ok subnet => exact absurd ((haccepts subnet).mp hr) (hnone subnet)

end Grammar

/-- `inet_aton` on one address. -/
def exampleAton (addr : String) : Option UInt32 :=
  if addr = "127.0.0.1" then some 0x7f000001 else none

/-- The length of this mask is followed by letters. -/
theorem not_acceptsGrammar : ¬AcceptsGrammar exampleAton "127.0.0.1/24abc" := by
  have hnum : Numeral "24abc".toList [] [] ['2', '4'] ['a', 'b', 'c'] := by
    refine ⟨by decide, by simp, .inl rfl, by simp, ?_, ?_⟩
    · rw [List.forall_mem_cons, List.forall_mem_singleton]
      decide
    · intro c hc
      obtain rfl : 'a' = c := by simpa using hc
      rfl
  refine LooselyWritten.refutes ⟨"127.0.0.1".toList, "24abc".toList, [], [], ['2', '4'],
    ['a', 'b', 'c'], by decide, by decide, by decide, hnum, by decide, by decide, by simp⟩

end Tns.Ip
