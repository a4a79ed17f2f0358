import Mathlib.Algebra.Group.Nat.Defs
import RouterConfig.Proofs.Address.Words

/-!
# Spellings of addresses and networks

An address is read from one text only, the one that is written for it
(`Ipv4.read?_eq_some_iff`).  A network has several spellings, and this module says which
texts behind an address and a slash are one of them.

With a point in it, such a text is a netmask or nothing.  Netmasks are made octet by
octet, but what they are is told by the address as a number of 32 bits: ones in front
and zeros behind (`bits_netmask`).  Taking a netmask apart goes the other way.  The ones
in front are counted, and the mask is none when shifting them out leaves something
(`onesOf?_eq_leadingOnes`).  Both ends of the range are met here, since a mask of no ones
is the shift by all 32 bits, and so is counting a mask of nothing but ones.
-/

namespace RouterConfig

open Text

namespace Ipv4

/-! ## The one text of an address -/

theorem readOctet?_eq_some_iff {cs : List Char} {n : UInt8} :
    readOctet? cs = some n ↔ cs = decimal n.toNat := by
  refine ⟨fun h => ?_, fun h => h ▸ readOctet?_decimal n⟩
  rw [readOctet?] at h
  split at h
  · next hform =>
    simp only [Bool.and_eq_true, Bool.or_eq_true, decide_eq_true_eq, beq_iff_eq, bne_iff_ne]
      at hform
    obtain ⟨value, hvalue, hn⟩ := Option.bind_eq_some_iff.mp h
    obtain ⟨hne, hdigits, rfl⟩ := readDigits?_eq_some_iff.mp hvalue
    split at hn
    · next hlt =>
      rw [← Option.some.inj hn, UInt8.toNat_ofNatLT]
      exact (decimal_digitsValue hdigits hne hform.2).symm
    · cases hn
  · cases h

/-- **An address is read from the text that is written for it**, and from no other. -/
theorem read?_eq_some_iff {s : String} {a : Ipv4} : read? s = some a ↔ s = a.render := by
  refine ⟨fun h => ?_, fun h => h ▸ read?_render a⟩
  rw [read?, readChars?] at h
  split at h
  · next first second third fourth hpieces =>
    simp only [Option.bind_eq_bind, Option.bind_eq_some_iff, readOctet?_eq_some_iff] at h
    obtain ⟨w, rfl, x, rfl, y, rfl, z, rfl, ha⟩ := h
    obtain rfl := Option.some.inj ha
    rw [← String.toList_inj, toList_render, ← intercalate_pieces '.' s.toList, hpieces]
    simp
  · cases h

theorem render_inj {a b : Ipv4} (h : a.render = b.render) : a = b := by
  have hread := read?_render a
  rw [h, read?_render] at hread
  exact (Option.some.inj hread).symm

/-! ## The number of an address -/

theorem toNat_lt (a : Ipv4) : a.toNat < 2 ^ 32 := by
  have hfirst := a.first.toNat_lt
  have hsecond := a.second.toNat_lt
  have hthird := a.third.toNat_lt
  have hfourth := a.fourth.toNat_lt
  rw [toNat]
  omega

/-- Different addresses have different numbers. -/
theorem toNat_inj {a b : Ipv4} (h : a.toNat = b.toNat) : a = b := by
  obtain ⟨a₁, a₂, a₃, a₄⟩ := a
  obtain ⟨b₁, b₂, b₃, b₄⟩ := b
  have ha := And.intro a₂.toNat_lt (And.intro a₃.toNat_lt a₄.toNat_lt)
  have hb := And.intro b₂.toNat_lt (And.intro b₃.toNat_lt b₄.toNat_lt)
  simp only [toNat] at h
  simp only [mk.injEq, ← UInt8.toNat_inj]
  omega

/-- The 32 bits of an address. -/
def bits (a : Ipv4) : BitVec 32 :=
  BitVec.ofNat 32 a.toNat

@[simp] theorem toNat_bits (a : Ipv4) : a.bits.toNat = a.toNat := by
  rw [bits, BitVec.toNat_ofNat, Nat.mod_eq_of_lt a.toNat_lt]

/-- The number of ones in front of the first zero. -/
def leadingOnes (a : Ipv4) : Nat :=
  (~~~a.bits).clz.toNat

theorem leadingOnes_le (a : Ipv4) : a.leadingOnes ≤ 32 :=
  BitVec.le_def.mp BitVec.clz_le

/-- So many ones in front make the number at least so large. -/
theorem lt_toNat_add (a : Ipv4) : 2 ^ 32 ≤ a.toNat + 2 ^ (32 - a.leadingOnes) := by
  have hzeros : (~~~a.bits).toNat < 2 ^ (32 - a.leadingOnes) := BitVec.toNat_lt_two_pow_sub_clz
  rw [BitVec.toNat_not, toNat_bits] at hzeros
  omega

/-- **Ones in front and nothing behind them** is one number, for each number of ones. -/
theorem toNat_add_of_shift {a : Ipv4} (h : a.bits <<< a.leadingOnes = 0) :
    a.toNat + 2 ^ (32 - a.leadingOnes) = 2 ^ 32 := by
  have hle := a.leadingOnes_le
  have hlarge := a.lt_toNat_add
  have hlt := a.toNat_lt
  generalize a.leadingOnes = ones at *
  have hpow : 2 ^ 32 = 2 ^ (32 - ones) * 2 ^ ones := by
    rw [← Nat.pow_add, Nat.sub_add_cancel hle]
  -- what is not shifted out is a multiple of the last place that is left
  have hdvd : 2 ^ (32 - ones) ∣ a.toNat := by
    have hnone := congrArg BitVec.toNat h
    rw [BitVec.toNat_shiftLeft, toNat_bits, Nat.shiftLeft_eq] at hnone
    have hall : 2 ^ (32 - ones) * 2 ^ ones ∣ a.toNat * 2 ^ ones := by
      rw [← hpow]
      exact Nat.dvd_of_mod_eq_zero hnone
    exact Nat.dvd_of_mul_dvd_mul_right (Nat.two_pow_pos ones) hall
  obtain ⟨q, hq⟩ := hdvd
  rw [hq, hpow] at hlarge hlt ⊢
  have hq_lt : q < 2 ^ ones := Nat.lt_of_mul_lt_mul_left hlt
  have hq_le : 2 ^ ones ≤ q + 1 := by
    refine Nat.le_of_mul_le_mul_left ?_ (Nat.two_pow_pos (32 - ones))
    rwa [Nat.mul_add, Nat.mul_one]
  rw [← Nat.mul_succ, Nat.le_antisymm hq_lt hq_le]

end Ipv4

namespace Network

/-! ## Netmasks -/

/-- **A netmask is ones in front and zeros behind**, as many ones as the network has bits. -/
theorem bits_netmask (n : Network) :
    n.netmask.bits = BitVec.allOnes 32 <<< (32 - min n.length.toNat 32) := by
  have hall : ∀ ones < 256, (maskOf ones).bits = BitVec.allOnes 32 <<< (32 - min ones 32) := by
    decide +kernel
  exact hall _ n.length.toNat_lt

theorem toNat_maskOf {ones : Nat} (h : ones ≤ 32) :
    (maskOf ones).toNat + 2 ^ (32 - ones) = 2 ^ 32 := by
  have hall : ∀ ones < 33, (maskOf ones).toNat + 2 ^ (32 - ones) = 2 ^ 32 := by decide +kernel
  exact hall ones (Nat.lt_succ_of_le h)

/-- The ones of a mask, if it is that of a length. -/
theorem onesOf?_eq_some_iff {mask : Ipv4} {ones : UInt8} :
    onesOf? mask = some ones ↔ ones ≤ 32 ∧ mask = maskOf ones.toNat := by
  constructor
  · intro h
    refine ⟨le_of_onesOf? h, ?_⟩
    rw [onesOf?, Option.map_eq_some_iff] at h
    obtain ⟨count, hfound, rfl⟩ := h
    have hlt : count < 33 := List.mem_range.mp (List.mem_of_find?_eq_some hfound)
    have hmask : maskOf count = mask := by simpa using List.find?_some hfound
    rw [UInt8.toNat_ofNat_of_lt' (hlt.trans (by decide)), hmask]
  · rintro ⟨hle, rfl⟩
    exact onesOf?_netmask (n := ⟨Ipv4.unspecified, ones⟩) hle

/-- **The ones of a mask are those in front**, and shifting them out has to leave
nothing. -/
theorem onesOf?_eq_leadingOnes (mask : Ipv4) :
    onesOf? mask =
      if mask.bits <<< mask.leadingOnes = 0 then some (UInt8.ofNat mask.leadingOnes) else none := by
  have hle := mask.leadingOnes_le
  have hcount : (UInt8.ofNat mask.leadingOnes).toNat = mask.leadingOnes :=
    UInt8.toNat_ofNat_of_lt' (hle.trans_lt (by decide))
  split
  · next hnone =>
    refine onesOf?_eq_some_iff.mpr ⟨UInt8.le_iff_toNat_le.mpr (by rw [hcount]; exact hle), ?_⟩
    refine Ipv4.toNat_inj ?_
    have hmask := Ipv4.toNat_add_of_shift hnone
    have hmade := toNat_maskOf hle
    rw [hcount]
    omega
  · next hsome =>
    have hall : ∀ ones < 33, (maskOf ones).bits <<< (maskOf ones).leadingOnes = 0 := by
      decide +kernel
    cases hones : onesOf? mask with
    | none => rfl
    | some ones =>
      obtain ⟨hfew, rfl⟩ := onesOf?_eq_some_iff.mp hones
      have hfew : ones.toNat ≤ 32 := UInt8.le_iff_toNat_le.mp hfew
      exact absurd (hall _ (Nat.lt_succ_of_le hfew)) hsome

/-! ## Behind the slash -/

/-- What has a point in it is read when it is the text of a netmask. -/
theorem readLength_eq_ok_iff {word : String} (hpoint : holds '.' word = true) {ones : UInt8} :
    readLength word = .ok ones ↔ ones ≤ 32 ∧ word = (maskOf ones.toNat).render := by
  have hmask : readLength word = .ok ones ↔
      ∃ mask, Ipv4.read? word = some mask ∧ onesOf? mask = some ones := by
    rw [readLength, if_pos hpoint]
    cases Ipv4.read? word with
    | none => simp
    | some mask => cases hones : onesOf? mask <;> simp [hones]
  simp only [hmask, Ipv4.read?_eq_some_iff, onesOf?_eq_some_iff]
  constructor
  · rintro ⟨mask, rfl, hle, rfl⟩
    exact ⟨hle, rfl⟩
  · rintro ⟨hle, rfl⟩
    exact ⟨_, rfl, hle, rfl⟩

/-- **The spellings of a network agree.**  A network is read back from the text that is
written for it.  Behind an address and a slash a dotted quad is read exactly when it is
the netmask of some length, and then as that length, just like the length itself.

Netmasks are the numbers of 32 bits with so many ones in front and no other ones, and
the length of one is found by counting the ones in front. -/
theorem spellings_agree (a : Ipv4) :
    (∀ k ≤ 32, read (render ⟨a, k⟩) = .ok ⟨a, k⟩) ∧
      (∀ m : Ipv4,
        (∀ n, read (a.render ++ "/" ++ m.render) = .ok n ↔
          ∃ k ≤ 32, m = netmask ⟨a, k⟩ ∧ n = ⟨a, k⟩) ∧
        (∀ k ≤ 32, m = netmask ⟨a, k⟩ →
          read (a.render ++ "/" ++ m.render) =
            read (a.render ++ "/" ++ String.ofList (decimal k.toNat))) ∧
        onesOf? m =
          if m.bits <<< m.leadingOnes = 0 then some (UInt8.ofNat m.leadingOnes) else none) ∧
      ∀ k ≤ 32, (netmask ⟨a, k⟩).bits = BitVec.allOnes 32 <<< (32 - k.toNat) := by
  refine ⟨fun k hk => read_render hk, fun m => ⟨fun n => ?_, ?_, onesOf?_eq_leadingOnes m⟩, ?_⟩
  · have hpoint : holds '.' m.render = true := by
      rw [holds, Ipv4.toList_render, List.contains_eq_mem, decide_eq_true_eq]
      simp
    have hsame : ∀ k : UInt8, m.render = (maskOf k.toNat).render ↔ m = netmask ⟨a, k⟩ := fun k =>
      ⟨fun h => Ipv4.render_inj h, fun h => h ▸ rfl⟩
    rw [read_slash, map_eq_ok_iff]
    simp only [readLength_eq_ok_iff hpoint, hsame, and_assoc, eq_comm]
  · rintro k hk rfl
    rw [read_slash, read_slash, readLength_netmask hk, readLength_decimal hk]
  · intro k hk
    have hk : k.toNat ≤ 32 := UInt8.le_iff_toNat_le.mp hk
    rw [bits_netmask, Nat.min_eq_left hk]

/-- A network behind whose address the netmask stands, and the same address with a mask in
which a one stands behind a zero. -/
theorem spellings_agree_twenty :
    read "10.0.16.0/255.255.240.0" = read "10.0.16.0/20" ∧
      read "10.0.16.0/20" = .ok ⟨⟨10, 0, 16, 0⟩, 20⟩ ∧
        ∀ n, read "10.0.16.0/255.0.255.0" ≠ .ok n := by
  have haddress : (⟨10, 0, 16, 0⟩ : Ipv4).render ++ "/" = "10.0.16.0/" := by decide +kernel
  have hmask : (⟨255, 255, 240, 0⟩ : Ipv4).render = "255.255.240.0" := by decide +kernel
  have hgap : (⟨255, 0, 255, 0⟩ : Ipv4).render = "255.0.255.0" := by decide +kernel
  have hlength : String.ofList (decimal (20 : UInt8).toNat) = "20" := by decide +kernel
  have hagree := (spellings_agree ⟨10, 0, 16, 0⟩).2.1
  have hsame := (hagree ⟨255, 255, 240, 0⟩).2.1 20 (by decide) (by decide)
  rw [haddress, hmask, hlength] at hsame
  refine ⟨hsame, by decide +kernel, fun n hn => ?_⟩
  have hread := (hagree ⟨255, 0, 255, 0⟩).1 n
  rw [haddress, hgap] at hread
  obtain ⟨k, hk, hnetmask, -⟩ := hread.mp hn
  have hones : onesOf? ⟨255, 0, 255, 0⟩ = some k := onesOf?_eq_some_iff.mpr ⟨hk, hnetmask⟩
  have hnone : onesOf? ⟨255, 0, 255, 0⟩ = none := by decide
  rw [hnone] at hones
  cases hones

end Network

end RouterConfig
