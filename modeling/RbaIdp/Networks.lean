import RbaIdp.AddressText

/-!
# Networks as text

The source language's `ipaddress.ip_network(text, strict=False)`: an address, or an
address, a slash and the length of a prefix; for IPv4 also a netmask or a hostmask.
`ipNetwork_isSome_iff` says which texts these are.
-/

namespace RbaIdp

/-! ## Masks -/

/-- `_prefix_from_prefix_string`: ASCII digits, no more than `int` reads. -/
def prefixFromPrefixString (bits : ℕ) (text : String) : Option ℕ :=
  let cs := text.toList
  if cs.isEmpty || cs.length > 4300 then none
  else (digits? 10 decimalDigit? cs).filter (· ≤ bits)

/-- `_count_righthand_zero_bits`, of a number of so many bits -/
def countRighthandZeroBits : ℕ → ℕ → ℕ
  | 0, _ => 0
  | bits + 1, number =>
      if number % 2 = 1 then 0 else countRighthandZeroBits bits (number / 2) + 1

/-- `_prefix_from_ip_int`: the number of ones, when there are only zeroes after them -/
def prefixFromIpInt (bits ip : ℕ) : Option ℕ :=
  let trailingZeroes := countRighthandZeroBits bits ip
  let prefixLength := bits - trailingZeroes
  if ip / 2 ^ trailingZeroes = 2 ^ prefixLength - 1 then some prefixLength else none

/-- `_prefix_from_ip_string`: a netmask, or the inverse of one -/
def prefixFromIpString (text : String) : Option ℕ := do
  let ip ← parseIpv4 text
  (prefixFromIpInt 32 ip).or (prefixFromIpInt 32 (2 ^ 32 - 1 - ip))

/-! ## Networks -/

/-- `IPv4Address(text)` -/
def ipv4Address (text : String) : Option ℕ :=
  match ipAddress text with
  | some (.v4 ip) => some ip
  | _ => none

/-- `IPv6Address(text)`, whatever its scope -/
def ipv6Address (text : String) : Option ℕ :=
  match ipAddress text with
  | some (.v6 ip _) => some ip
  | _ => none

/-- The address of a network: the bits of its prefix. -/
def networkAddress (bits ip prefixLength : ℕ) : ℕ :=
  ip / 2 ^ (bits - prefixLength) * 2 ^ (bits - prefixLength)

/-- The constructor of a network class, by how it reads an address and a mask. -/
def networkOf (address makeNetmask : String → Option ℕ) (bits : ℕ)
    (network : ℕ → ℕ → IpNetwork) (text : String) : Option IpNetwork :=
  match split text '/' with
  | [addr] => (address addr).map fun ip => network ip bits
  | [addr, mask] => do
      let ip ← address addr
      let prefixLength ← makeNetmask mask
      return network (networkAddress bits ip prefixLength) prefixLength
  | _ => none

/-- `IPv4Network(text, strict=False)` -/
def ipv4Network : String → Option IpNetwork :=
  networkOf ipv4Address (fun mask => (prefixFromPrefixString 32 mask).or (prefixFromIpString mask))
    32 .v4

/-- `IPv6Network(text, strict=False)` -/
def ipv6Network : String → Option IpNetwork :=
  networkOf ipv6Address (prefixFromPrefixString 128) 128 .v6

/-- `ipaddress.ip_network(text, strict=False)` -/
def ipNetwork (text : String) : Option IpNetwork := (ipv4Network text).or (ipv6Network text)

/-! ## What a mask says -/

theorem dvd_countRighthandZeroBits (bits number : ℕ) :
    countRighthandZeroBits bits number ≤ bits ∧
      2 ^ countRighthandZeroBits bits number ∣ number := by
  induction bits generalizing number with
  | zero => simp [countRighthandZeroBits]
  | succ bits ih =>
      rw [countRighthandZeroBits]
      split
      · simp
      · next heven =>
          obtain ⟨hle, hdvd⟩ := ih (number / 2)
          refine ⟨Nat.succ_le_succ hle, ?_⟩
          have hhalf : number = number / 2 * 2 := by omega
          rw [Nat.pow_succ, hhalf]
          simpa using Nat.mul_dvd_mul_right hdvd 2

theorem countRighthandZeroBits_zero (bits : ℕ) : countRighthandZeroBits bits 0 = bits := by
  induction bits with
  | zero => rfl
  | succ bits ih => simp [countRighthandZeroBits, ih]

theorem countRighthandZeroBits_odd {bits zeroes odd : ℕ} (h : zeroes < bits)
    (hodd : odd % 2 = 1) : countRighthandZeroBits bits (odd * 2 ^ zeroes) = zeroes := by
  induction zeroes generalizing bits with
  | zero =>
      obtain ⟨bits, rfl⟩ := Nat.exists_eq_succ_of_ne_zero (Nat.ne_zero_of_lt h)
      simp [countRighthandZeroBits, hodd]
  | succ zeroes ih =>
      obtain ⟨bits, rfl⟩ := Nat.exists_eq_succ_of_ne_zero (Nat.ne_zero_of_lt h)
      have hdouble : odd * 2 ^ (zeroes + 1) = odd * 2 ^ zeroes * 2 := by ring
      rw [countRighthandZeroBits, hdouble, if_neg (by omega), Nat.mul_div_cancel _ (by omega),
        ih (by omega)]

/-- The numbers that are a mask are ones first and then zeroes. -/
theorem prefixFromIpInt_isSome {bits ip : ℕ} :
    (prefixFromIpInt bits ip).isSome ↔ ∃ zeroes ≤ bits, ip = 2 ^ bits - 2 ^ zeroes := by
  have hones : ∀ zeroes ≤ bits,
      (2 ^ (bits - zeroes) - 1) * 2 ^ zeroes = 2 ^ bits - 2 ^ zeroes := by
    intro zeroes hle
    rw [Nat.sub_mul, ← Nat.pow_add, Nat.sub_add_cancel hle, Nat.one_mul]
  unfold prefixFromIpInt
  dsimp only
  constructor
  · intro h
    obtain ⟨hle, hdvd⟩ := dvd_countRighthandZeroBits bits ip
    refine ⟨_, hle, ?_⟩
    split at h
    · next hmask => rw [← hones _ hle, ← hmask, Nat.div_mul_cancel hdvd]
    · cases h
  · rintro ⟨zeroes, hle, rfl⟩
    have hcount : countRighthandZeroBits bits (2 ^ bits - 2 ^ zeroes) = zeroes := by
      rcases Nat.lt_or_eq_of_le hle with hlt | rfl
      · rw [← hones zeroes hle]
        refine countRighthandZeroBits_odd hlt ?_
        have hpos : 0 < bits - zeroes := by omega
        obtain ⟨k, hk⟩ := Nat.exists_eq_succ_of_ne_zero (Nat.ne_zero_of_lt hpos)
        have hpow : 0 < 2 ^ k := Nat.two_pow_pos k
        rw [hk, Nat.pow_succ]
        omega
      · rw [Nat.sub_self, countRighthandZeroBits_zero]
    rw [hcount, ← hones zeroes hle, Nat.mul_div_cancel _ (Nat.two_pow_pos zeroes), if_pos rfl]
    rfl

/-- A number in ASCII digits. -/
def Numeral (text : String) (n : ℕ) : Prop :=
  text ≠ "" ∧ text.toList.length ≤ 4300 ∧ digits? 10 decimalDigit? text.toList = some n

theorem prefixFromPrefixString_isSome {bits : ℕ} {text : String} :
    (prefixFromPrefixString bits text).isSome ↔ ∃ n ≤ bits, Numeral text n := by
  unfold prefixFromPrefixString Numeral
  dsimp only
  by_cases hempty : text = ""
  · simp [hempty]
  have hnonempty : text.toList.isEmpty = false := by simpa using hempty
  by_cases hlong : text.toList.length > 4300
  · simp only [hnonempty, hlong, decide_true, Bool.or_true, if_true]
    have hnot : ¬ text.toList.length ≤ 4300 := by omega
    simp [hnot]
  · have hshort : text.toList.length ≤ 4300 := by omega
    simp only [hnonempty, hlong, decide_false, Bool.or_false, Bool.false_eq_true, if_false]
    simp only [Option.isSome_iff_exists, Option.filter_eq_some_iff, decide_eq_true_eq, hshort,
      ne_eq, hempty, not_false_eq_true, true_and]
    exact exists_congr fun n => and_comm

/-- No digit is a slash. -/
theorem Numeral.plain {text : String} {n : ℕ} (h : Numeral text n) : '/' ∉ text.toList := by
  intro hslash
  have hdigits := (digits?_eq_some (fun c d hd => (decimalDigit?_eq_some hd).1) h.2.2).1
  exact hdigits '/' hslash (by decide)

theorem plain_of_ipAddress {text : String} {a : IpAddress} (h : ipAddress text = some a) :
    '/' ∉ text.toList := by
  unfold ipAddress at h
  obtain ⟨hslash, -⟩ := Option.ite_none_left_eq_some.mp h
  simpa using hslash

theorem ipv4Address_eq_some {text : String} {ip : ℕ} :
    ipv4Address text = some ip ↔ ipAddress text = some (.v4 ip) := by
  unfold ipv4Address
  rcases ipAddress text with _ | (ip | ⟨ip, scope⟩) <;> simp

theorem ipv6Address_eq_some {text : String} {ip : ℕ} :
    ipv6Address text = some ip ↔ ∃ scope, ipAddress text = some (.v6 ip scope) := by
  unfold ipv6Address
  rcases ipAddress text with _ | (ip | ⟨ip, scope⟩) <;> simp

/-- A text without a slash is read as an IPv4 address first. -/
theorem ipv4Address_of_plain {text : String} (h : '/' ∉ text.toList) :
    ipv4Address text = parseIpv4 text := by
  have hplain : text.toList.contains '/' = false := by simpa using h
  unfold ipv4Address ipAddress
  rw [hplain]
  cases hip : parseIpv4 text with
  | some ip => rfl
  | none =>
      simp only [Bool.false_eq_true, if_false]
      split
      · next heq =>
          split at heq
          · obtain ⟨_, _, h⟩ := Option.map_eq_some_iff.mp heq
            cases h
          · obtain ⟨_, h⟩ := Option.ite_none_left_eq_some.mp heq
            obtain ⟨_, _, h⟩ := Option.map_eq_some_iff.mp h
            cases h
      · rfl

/-- A mask of an IPv4 network: a number of bits, a netmask or a hostmask. -/
theorem ipv4Mask_isSome {mask : String} (hplain : '/' ∉ mask.toList) :
    ((prefixFromPrefixString 32 mask).or (prefixFromIpString mask)).isSome ↔
      (∃ n ≤ 32, Numeral mask n) ∨
      (∃ zeroes ≤ 32, ipv4Address mask = some (2 ^ 32 - 2 ^ zeroes)) ∨
      ∃ ones ≤ 32, ipv4Address mask = some (2 ^ ones - 1) := by
  have hdotted : (prefixFromIpString mask).isSome ↔
      (∃ zeroes ≤ 32, ipv4Address mask = some (2 ^ 32 - 2 ^ zeroes)) ∨
      ∃ ones ≤ 32, ipv4Address mask = some (2 ^ ones - 1) := by
    rw [ipv4Address_of_plain hplain, prefixFromIpString]
    cases hip : parseIpv4 mask with
    | none => simp
    | some ip =>
        have hlt : ip < 2 ^ 32 := (parseIpv4_eq_some hip).1
        have hinverse : ∀ ones ≤ 32, 2 ^ 32 - 1 - ip = 2 ^ 32 - 2 ^ ones ↔ ip = 2 ^ ones - 1 := by
          intro ones hle
          have hpow : 2 ^ ones ≤ 2 ^ 32 := Nat.pow_le_pow_right (by omega) hle
          have hpos : 0 < 2 ^ ones := Nat.two_pow_pos ones
          omega
        simp only [Option.bind_eq_bind, Option.bind_some, Option.isSome_or, Bool.or_eq_true,
          prefixFromIpInt_isSome, Option.some.injEq]
        refine or_congr Iff.rfl (exists_congr fun ones => ?_)
        exact and_congr_right fun hle => hinverse ones hle
  rw [Option.isSome_or, Bool.or_eq_true, prefixFromPrefixString_isSome, hdotted]

/-- The texts of networks. -/
inductive NetworkText : String → Prop where
  | v4 {addr : String} {ip : ℕ} (haddr : ipv4Address addr = some ip) : NetworkText addr
  | v4Prefix {addr mask : String} {ip n : ℕ} (haddr : ipv4Address addr = some ip)
      (hmask : Numeral mask n) (hle : n ≤ 32) : NetworkText (addr ++ "/" ++ mask)
  | v4Netmask {addr mask : String} {ip zeroes : ℕ} (haddr : ipv4Address addr = some ip)
      (hle : zeroes ≤ 32) (hmask : ipv4Address mask = some (2 ^ 32 - 2 ^ zeroes)) :
      NetworkText (addr ++ "/" ++ mask)
  | v4Hostmask {addr mask : String} {ip ones : ℕ} (haddr : ipv4Address addr = some ip)
      (hle : ones ≤ 32) (hmask : ipv4Address mask = some (2 ^ ones - 1)) :
      NetworkText (addr ++ "/" ++ mask)
  | v6 {addr : String} {ip : ℕ} (haddr : ipv6Address addr = some ip) : NetworkText addr
  | v6Prefix {addr mask : String} {ip n : ℕ} (haddr : ipv6Address addr = some ip)
      (hmask : Numeral mask n) (hle : n ≤ 128) : NetworkText (addr ++ "/" ++ mask)

theorem split_slash {addr mask : String} (haddr : '/' ∉ addr.toList) (hmask : '/' ∉ mask.toList) :
    split (addr ++ "/" ++ mask) '/' = [addr, mask] := by
  have hchars : (addr ++ "/" ++ mask).toList = addr.toList ++ '/' :: mask.toList := by simp
  rw [split_append hchars, split_of_not_mem haddr, split_of_not_mem hmask]
  rfl

/-- A network is an address, or an address, a slash and a mask. -/
theorem networkOf_isSome {address makeNetmask : String → Option ℕ} {bits : ℕ}
    {network : ℕ → ℕ → IpNetwork} {text : String}
    (hplain : ∀ addr, (address addr).isSome → '/' ∉ addr.toList) :
    (networkOf address makeNetmask bits network text).isSome ↔
      (address text).isSome ∨ ∃ addr mask, text = addr ++ "/" ++ mask ∧ '/' ∉ mask.toList ∧
        (address addr).isSome ∧ (makeNetmask mask).isSome := by
  have hjoin := intercalate_split text '/'
  unfold networkOf
  constructor
  · intro h
    split at h
    · next addr hsplit =>
        rw [hsplit, String.intercalate_singleton] at hjoin
        rw [← hjoin]
        exact Or.inl (by simpa using h)
    · next addr mask hsplit =>
        rw [hsplit] at hjoin
        have htext : text = addr ++ "/" ++ mask := by
          rw [← hjoin]
          rfl
        obtain ⟨network, hnetwork⟩ := Option.isSome_iff_exists.mp h
        obtain ⟨ip, hip, hrest⟩ := Option.bind_eq_some_iff.mp hnetwork
        obtain ⟨n, hn, -⟩ := Option.bind_eq_some_iff.mp hrest
        refine Or.inr ⟨addr, mask, htext, not_mem_of_mem_split (s := text) ?_, ?_, ?_⟩
        · rw [hsplit]
          simp
        · simp [hip]
        · simp [hn]
    · cases h
  · rintro (h | ⟨addr, mask, rfl, hmask, haddr, hn⟩)
    · rw [split_of_not_mem (hplain text h)]
      simpa using h
    · rw [split_slash (hplain addr haddr) hmask]
      obtain ⟨ip, hip⟩ := Option.isSome_iff_exists.mp haddr
      obtain ⟨n, hn⟩ := Option.isSome_iff_exists.mp hn
      simp [hip, hn]

/-- The texts `ip_network` takes. -/
theorem ipNetwork_isSome_iff {text : String} : (ipNetwork text).isSome ↔ NetworkText text := by
  have hplain4 : ∀ addr, (ipv4Address addr).isSome → '/' ∉ addr.toList := by
    intro addr h
    obtain ⟨ip, hip⟩ := Option.isSome_iff_exists.mp h
    exact plain_of_ipAddress (ipv4Address_eq_some.mp hip)
  have hplain6 : ∀ addr, (ipv6Address addr).isSome → '/' ∉ addr.toList := by
    intro addr h
    obtain ⟨ip, hip⟩ := Option.isSome_iff_exists.mp h
    obtain ⟨scope, hscope⟩ := ipv6Address_eq_some.mp hip
    exact plain_of_ipAddress hscope
  have hnetwork : (ipNetwork text).isSome ↔
      (ipv4Network text).isSome ∨ (ipv6Network text).isSome := by
    simp [ipNetwork]
  rw [hnetwork, ipv4Network, ipv6Network, networkOf_isSome hplain4, networkOf_isSome hplain6]
  constructor
  · rintro ((h | ⟨addr, mask, rfl, hmask, haddr, hn⟩) | (h | ⟨addr, mask, rfl, hmask, haddr, hn⟩))
    · obtain ⟨ip, hip⟩ := Option.isSome_iff_exists.mp h
      exact .v4 hip
    · obtain ⟨ip, hip⟩ := Option.isSome_iff_exists.mp haddr
      rcases (ipv4Mask_isSome hmask).mp hn with
        ⟨n, hle, hnumeral⟩ | ⟨zeroes, hle, hnetmask⟩ | ⟨ones, hle, hhostmask⟩
      · exact .v4Prefix hip hnumeral hle
      · exact .v4Netmask hip hle hnetmask
      · exact .v4Hostmask hip hle hhostmask
    · obtain ⟨ip, hip⟩ := Option.isSome_iff_exists.mp h
      exact .v6 hip
    · obtain ⟨ip, hip⟩ := Option.isSome_iff_exists.mp haddr
      obtain ⟨n, hle, hn⟩ := prefixFromPrefixString_isSome.mp hn
      exact .v6Prefix hip hn hle
  · intro h
    cases h with
    | v4 haddr => exact Or.inl (Or.inl (by simp [haddr]))
    | v6 haddr => exact Or.inr (Or.inl (by simp [haddr]))
    | v4Prefix haddr hmask hle =>
        refine Or.inl (Or.inr ⟨_, _, rfl, hmask.plain, by simp [haddr], ?_⟩)
        exact (ipv4Mask_isSome hmask.plain).mpr (Or.inl ⟨_, hle, hmask⟩)
    | v4Netmask haddr hle hmask =>
        have hplain := hplain4 _ (Option.isSome_iff_exists.mpr ⟨_, hmask⟩)
        refine Or.inl (Or.inr ⟨_, _, rfl, hplain, by simp [haddr], ?_⟩)
        exact (ipv4Mask_isSome hplain).mpr (Or.inr (Or.inl ⟨_, hle, hmask⟩))
    | v4Hostmask haddr hle hmask =>
        have hplain := hplain4 _ (Option.isSome_iff_exists.mpr ⟨_, hmask⟩)
        refine Or.inl (Or.inr ⟨_, _, rfl, hplain, by simp [haddr], ?_⟩)
        exact (ipv4Mask_isSome hplain).mpr (Or.inr (Or.inr ⟨_, hle, hmask⟩))
    | v6Prefix haddr hmask hle =>
        refine Or.inr (Or.inr ⟨_, _, rfl, hmask.plain, by simp [haddr], ?_⟩)
        exact prefixFromPrefixString_isSome.mpr ⟨_, hle, hmask⟩

end RbaIdp
