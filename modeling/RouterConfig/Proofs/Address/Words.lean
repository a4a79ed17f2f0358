import RouterConfig.Address.Ipv6
import RouterConfig.Address.Network
import RouterConfig.Proofs.Faults
import RouterConfig.Proofs.Text.Numerals
import RouterConfig.Proofs.Text.Pieces

/-!
# Addresses as words

An address of either family is one word, however it is spelled, and so is a network.  An
IPv4 address that was written is read back, and so is a network whose length is one that
can be read.
-/

namespace RouterConfig

open Text

namespace Ipv4

/-! ## Writing -/

/-- Nothing but digits and points is written. -/
theorem toList_render (a : Ipv4) :
    a.render.toList = decimal a.first.toNat ++ '.' :: (decimal a.second.toNat ++
      '.' :: (decimal a.third.toNat ++ '.' :: decimal a.fourth.toNat)) := by
  simp [render]

theorem isWord_render (a : Ipv4) : IsWord a.render := by
  have hdecimal : ∀ n, ∀ c ∈ decimal n, isBlank c = false :=
    fun n c hc => isBlank_eq_false_of_isDigit (isDigit_of_mem_decimal n c hc)
  have hpoint : isBlank '.' = false := by decide
  rw [isWord_iff, toList_render]
  refine ⟨List.append_ne_nil_of_left_ne_nil (decimal_ne_nil _) _, ?_⟩
  simp only [List.forall_mem_append, List.forall_mem_cons]
  exact ⟨hdecimal _, hpoint, hdecimal _, hpoint, hdecimal _, hpoint, hdecimal _⟩

/-- What is neither a digit nor a point is not written. -/
theorem not_mem_render (a : Ipv4) {c : Char} (hdigit : isDigit c = false) (hpoint : c ≠ '.') :
    c ∉ a.render.toList := by
  have hdecimal : ∀ n, c ∉ decimal n := by
    intro n h
    rw [isDigit_of_mem_decimal n c h] at hdigit
    exact absurd hdigit (by decide)
  rw [toList_render]
  simp only [List.mem_append, List.mem_cons, hdecimal, hpoint, or_false, not_false_iff]

/-! ## Reading -/

/-- What is read as an octet has digits only. -/
theorem isDigit_of_readOctet? {cs : List Char} {n : UInt8} (h : readOctet? cs = some n) :
    ∀ c ∈ cs, isDigit c = true := by
  rw [readOctet?] at h
  split at h
  · obtain ⟨value, hvalue, -⟩ := Option.bind_eq_some_iff.mp h
    exact (readDigits?_eq_some_iff.mp hvalue).2.1
  · cases h

/-- What is read as an address has digits and points only. -/
theorem of_mem_of_readChars? {cs : List Char} {a : Ipv4} (h : readChars? cs = some a) :
    ∀ c ∈ cs, isDigit c = true ∨ c = '.' := by
  refine forall_mem_of_pieces '.' (Or.inr rfl) ?_
  rw [readChars?] at h
  split at h
  · next p q r s hpieces =>
    simp only [Option.bind_eq_bind, Option.bind_eq_some_iff] at h
    obtain ⟨_, hp, _, hq, _, hr, _, hs, -⟩ := h
    rw [hpieces]
    intro piece hpiece c hc
    simp only [List.mem_cons, List.not_mem_nil, or_false] at hpiece
    rcases hpiece with rfl | rfl | rfl | rfl
    · exact Or.inl (isDigit_of_readOctet? hp c hc)
    · exact Or.inl (isDigit_of_readOctet? hq c hc)
    · exact Or.inl (isDigit_of_readOctet? hr c hc)
    · exact Or.inl (isDigit_of_readOctet? hs c hc)
  · exact absurd h (by simp)

theorem readChars?_nil : readChars? [] = none := by decide

/-! ## Reading what was written -/

theorem length_decimal_le {n : Nat} (h : n < 1000) : (decimal n).length ≤ 3 := by
  have hstep : ∀ m, 10 ≤ m → (decimal m).length = (decimal (m / 10)).length + 1 := by
    intro m hm
    rw [decimal, if_neg (by omega), List.length_append, List.length_singleton]
  have hone : ∀ m, m < 10 → (decimal m).length = 1 := by
    intro m hm
    rw [decimal, if_pos hm, List.length_singleton]
  rcases Nat.lt_or_ge n 10 with hn | hn
  · rw [hone n hn]
    omega
  · rw [hstep n hn]
    rcases Nat.lt_or_ge (n / 10) 10 with hm | hm
    · rw [hone _ hm]
      omega
    · rw [hstep _ hm, hone _ (by omega)]

/-- A numeral has no leading zero, apart from that of zero. -/
theorem head?_decimal_ne_zero {n : Nat} (h : 0 < n) : (decimal n).head? ≠ some '0' := by
  induction n using Nat.strongRecOn with
  | ind n ih =>
    have hdigit : ∀ d < 10, digitChar d = '0' → d = 0 := by decide
    rw [decimal]
    split
    · next hn =>
      rw [List.head?_cons]
      intro hzero
      have hd := hdigit n hn (Option.some.inj hzero)
      omega
    · rw [List.head?_append_of_ne_nil _ (decimal_ne_nil _)]
      exact ih (n / 10) (by omega) (by omega)

theorem readOctet?_decimal (n : UInt8) : readOctet? (decimal n.toNat) = some n := by
  have hlt : n.toNat < UInt8.size := n.toNat_lt
  have hlength := length_decimal_le (n := n.toNat) (hlt.trans (by decide))
  have hzero : (decimal n.toNat).length = 1 ∨ (decimal n.toNat).head? ≠ some '0' := by
    rcases Nat.eq_zero_or_pos n.toNat with hn | hn
    · rw [hn]
      left
      rw [decimal]
      rfl
    · exact Or.inr (head?_decimal_ne_zero hn)
  rw [readOctet?, if_pos (by simpa [hlength] using hzero), readDigits?_decimal, Option.bind_some,
    dif_pos hlt]
  rfl

/-- **An address is read back.** -/
@[simp] theorem read?_render (a : Ipv4) : read? a.render = some a := by
  have hpoint : ∀ n, '.' ∉ decimal n :=
    fun n h => absurd (isDigit_of_mem_decimal n '.' h) (by decide)
  rw [read?, readChars?, toList_render, pieces_append (hpoint _), pieces_append (hpoint _),
    pieces_append (hpoint _), pieces_of_not_mem (hpoint _)]
  simp [readOctet?_decimal]

end Ipv4

/-! ## Addresses of either family -/

namespace Ipv6

/-- A character that may stand in an address. -/
def IsAddressChar (c : Char) : Prop :=
  isHexDigit c = true ∨ c = ':' ∨ c = '.'

theorem isBlank_eq_false_of_isAddressChar {c : Char} (h : IsAddressChar c) :
    isBlank c = false := by
  rcases h with h | rfl | rfl
  · simp only [isHexDigit, Bool.or_eq_true, Bool.and_eq_true, decide_eq_true_eq,
      Char.le_def, UInt32.le_iff_toNat_le] at h
    rcases h with (h | h) | h
    · exact isBlank_eq_false_of_isDigit h
    · have hlow : 97 ≤ c.toNat := h.1
      have hhigh : c.toNat ≤ 102 := h.2
      exact isBlank_eq_false_of_le (by omega) (by omega)
    · have hlow : 65 ≤ c.toNat := h.1
      have hhigh : c.toNat ≤ 70 := h.2
      exact isBlank_eq_false_of_le (by omega) (by omega)
  · decide
  · decide

theorem isAddressChar_of_isDigit {c : Char} (h : isDigit c = true) : IsAddressChar c :=
  Or.inl (by rw [isHexDigit, h]; rfl)

theorem isAddressChar_of_isGroup {piece : List Char} (h : isGroup piece = true) :
    ∀ c ∈ piece, IsAddressChar c := by
  rw [isGroup, Bool.and_eq_true] at h
  exact fun c hc => Or.inl (List.all_eq_true.mp h.2 c hc)

theorem isAddressChar_of_readChars? {piece : List Char} {a : Ipv4}
    (h : Ipv4.readChars? piece = some a) : ∀ c ∈ piece, IsAddressChar c := by
  intro c hc
  rcases Ipv4.of_mem_of_readChars? h c hc with hdigit | hpoint
  · exact isAddressChar_of_isDigit hdigit
  · exact Or.inr (Or.inr hpoint)

/-- Pieces that are counted as groups hold nothing else. -/
theorem isAddressChar_of_groupCount? {parts : List (List Char)}
    (h : (groupCount? parts).isSome = true) : ∀ piece ∈ parts, ∀ c ∈ piece, IsAddressChar c := by
  fun_induction groupCount? parts with
  | case1 => simp
  | case2 piece hgroup => simpa using isAddressChar_of_isGroup hgroup
  | case3 piece hgroup hv4 =>
    obtain ⟨a, ha⟩ := Option.isSome_iff_exists.mp hv4
    simpa using isAddressChar_of_readChars? ha
  | case4 => exact absurd h (by simp)
  | case5 piece rest hrest hgroup ih =>
    rw [Option.isSome_map] at h
    exact List.forall_mem_cons.mpr ⟨isAddressChar_of_isGroup hgroup, ih h⟩
  | case6 => exact absurd h (by simp)

/-- A text whose groups hold nothing else holds nothing else. -/
theorem isAddressChar_of_groups {cs : List Char}
    (h : ∀ piece ∈ groups cs, ∀ c ∈ piece, IsAddressChar c) : ∀ c ∈ cs, IsAddressChar c := by
  rw [groups] at h
  split at h
  · next hempty =>
    rw [List.isEmpty_iff.mp hempty]
    simp
  · exact forall_mem_of_pieces ':' (Or.inr (Or.inl rfl)) h

theorem eq_of_splitAtGap? {cs head tail : List Char} (h : splitAtGap? cs = some (head, tail)) :
    cs = head ++ ':' :: ':' :: tail := by
  fun_induction splitAtGap? cs generalizing head with
  | case1 => exact absurd h (by simp)
  | case2 => exact absurd h (by simp)
  | case3 c d cs hgap =>
    simp only [Bool.and_eq_true, decide_eq_true_eq] at hgap
    obtain ⟨rfl, rfl⟩ := Prod.mk.inj (Option.some.inj h)
    rw [hgap.1, hgap.2, List.nil_append]
  | case4 c d cs hgap ih =>
    rw [Option.map_eq_some_iff] at h
    obtain ⟨⟨first, second⟩, hsplit, hparts⟩ := h
    obtain ⟨rfl, rfl⟩ := Prod.mk.inj hparts
    rw [ih hsplit, List.cons_append]

/-- **An address holds nothing but digits, colons and points.** -/
theorem isAddressChar_of_isAddress {cs : List Char} (h : isAddress cs = true) :
    cs ≠ [] ∧ ∀ c ∈ cs, IsAddressChar c := by
  rw [isAddress] at h
  split at h
  · next hgap =>
    refine ⟨?_, isAddressChar_of_groups (isAddressChar_of_groupCount? ?_)⟩
    · rintro rfl
      exact absurd h (by decide)
    · rw [beq_iff_eq.mp h]
      rfl
  · next head tail hgap =>
    rw [Bool.and_eq_true] at h
    obtain ⟨hhead, htail⟩ := h
    have hcolon : IsAddressChar ':' := Or.inr (Or.inl rfl)
    have hfront : ∀ c ∈ head, IsAddressChar c := by
      refine isAddressChar_of_groups fun piece hpiece => ?_
      exact isAddressChar_of_isGroup (List.all_eq_true.mp hhead piece hpiece)
    have hback : ∀ c ∈ tail, IsAddressChar c := by
      refine isAddressChar_of_groups (isAddressChar_of_groupCount? ?_)
      cases hcount : groupCount? (groups tail) with
      | none => rw [hcount] at htail; exact absurd htail (by simp)
      | some count => rfl
    rw [eq_of_splitAtGap? hgap]
    refine ⟨List.append_ne_nil_of_right_ne_nil _ (List.cons_ne_nil _ _), ?_⟩
    simp only [List.forall_mem_append, List.forall_mem_cons]
    exact ⟨hfront, hcolon, hcolon, hback⟩

end Ipv6

/-- **An address is a word.** -/
theorem isWord_of_isAddress {s : String} (h : isAddress s = true) : IsWord s := by
  rw [isAddress, Bool.or_eq_true] at h
  have hchars : s.toList ≠ [] ∧ ∀ c ∈ s.toList, Ipv6.IsAddressChar c := by
    rcases h with h | h
    · obtain ⟨a, ha⟩ := Option.isSome_iff_exists.mp h
      rw [Ipv4.read?] at ha
      refine ⟨fun hnil => ?_, Ipv6.isAddressChar_of_readChars? ha⟩
      rw [hnil, Ipv4.readChars?_nil] at ha
      exact absurd ha (by simp)
    · exact Ipv6.isAddressChar_of_isAddress h
  rw [isWord_iff]
  exact ⟨hchars.1, fun c hc => Ipv6.isBlank_eq_false_of_isAddressChar (hchars.2 c hc)⟩

/-! ## Networks -/

namespace Network

/-- No netmask has more than 32 ones. -/
theorem le_of_onesOf? {mask : Ipv4} {ones : UInt8} (h : onesOf? mask = some ones) : ones ≤ 32 := by
  have hall : ∀ n ∈ List.range 33, UInt8.ofNat n ≤ 32 := by decide
  rw [onesOf?, Option.map_eq_some_iff] at h
  obtain ⟨n, hfound, rfl⟩ := h
  exact hall n (List.mem_of_find?_eq_some hfound)

theorem le_of_readLength {word : String} {ones : UInt8} (h : readLength word = .ok ones) :
    ones ≤ 32 := by
  rw [readLength] at h
  split at h
  · split at h
    · cases h
    · split at h
      · cases h
      · next hones =>
        cases h
        exact le_of_onesOf? hones
  · split at h
    · split at h
      · next hle =>
        cases h
        exact hle
      · cases h
    · cases h

/-- **A network that was read** has a length of at most 32. -/
theorem length_le_of_read {word : String} {n : Network} (h : read word = .ok n) :
    n.length ≤ 32 := by
  rw [read] at h
  split at h
  · cases h
    decide
  · split at h
    · split at h
      · cases h
      · cases h
        exact UInt8.le_refl 32
    · split at h
      · cases h
      · obtain ⟨ones, hones, rfl⟩ := map_eq_ok_iff.mp h
        exact le_of_readLength hones

/-- The number of bits is read back. -/
theorem readLength_decimal {ones : UInt8} (h : ones ≤ 32) :
    readLength (String.ofList (decimal ones.toNat)) = .ok ones := by
  have hpoint : holds '.' (String.ofList (decimal ones.toNat)) = false := by
    rw [holds, String.toList_ofList, List.contains_eq_mem, decide_eq_false_iff_not]
    exact fun hmem => absurd (isDigit_of_mem_decimal _ '.' hmem) (by decide)
  rw [readLength, hpoint, if_neg (by decide), readOctet?_decimal]
  exact if_pos h

/-- An address alone is the network of that host. -/
theorem read_host (a : Ipv4) : read a.render = .ok ⟨a, 32⟩ := by
  have hslash : '/' ∉ a.render.toList := a.not_mem_render (by decide) (by decide)
  have hdefault : a.render ≠ "default" := by
    intro heq
    have hd : 'd' ∉ a.render.toList := a.not_mem_render (by decide) (by decide)
    rw [heq] at hd
    exact absurd hd (by decide)
  rw [read, if_neg hdefault, splitOnce?_of_not_mem hslash, Ipv4.read?_render]

/-- Behind an address and a slash stands the length in one of its spellings. -/
theorem read_slash (a : Ipv4) (behind : String) :
    read (a.render ++ "/" ++ behind) = (readLength behind).map fun ones => ⟨a, ones⟩ := by
  have hslash : '/' ∉ a.render.toList := a.not_mem_render (by decide) (by decide)
  have htext : (a.render ++ "/" ++ behind).toList = a.render.toList ++ '/' :: behind.toList := by
    simp
  have hdefault : a.render ++ "/" ++ behind ≠ "default" := by
    intro heq
    rw [heq] at htext
    exact absurd (htext ▸ List.mem_append_right _ (List.mem_cons_self ..) :
      '/' ∈ "default".toList) (by decide)
  rw [read, if_neg hdefault, splitOnce?_of_toList hslash htext]
  simp only [Ipv4.read?_render]

/-- The word spells the network: with the number of bits, with the netmask, by the address alone
if it is one host, or by a word of its own if it is the default route. -/
inductive IsSpelling : Network → String → Prop
  | bits (n : Network) :
    IsSpelling n (n.address.render ++ "/" ++ String.ofList (decimal n.length.toNat))
  | netmask (n : Network) : IsSpelling n (n.address.render ++ "/" ++ n.netmask.render)
  | host (a : Ipv4) : IsSpelling ⟨a, 32⟩ a.render
  | default : IsSpelling everywhere "default"

/-- The ones of a netmask are counted. -/
theorem onesOf?_netmask {n : Network} (h : n.length ≤ 32) : onesOf? n.netmask = some n.length := by
  have hall : ∀ ones < 33, onesOf? (maskOf ones) = some (UInt8.ofNat ones) := by decide +kernel
  have hlt : n.length.toNat < 33 := Nat.lt_succ_of_le (UInt8.le_iff_toNat_le.mp h)
  rw [netmask, hall _ hlt, UInt8.ofNat_toNat]

/-- The netmask is read as the number of its ones. -/
theorem readLength_netmask {n : Network} (h : n.length ≤ 32) :
    readLength n.netmask.render = .ok n.length := by
  have hpoint : holds '.' n.netmask.render = true := by
    rw [holds, Ipv4.toList_render, List.contains_eq_mem, decide_eq_true_eq]
    simp
  rw [readLength, if_pos hpoint, Ipv4.read?_render]
  simp only [onesOf?_netmask h]

/-- **A network is read in each of its spellings.** -/
theorem IsSpelling.read_eq {n : Network} {word : String} (hword : IsSpelling n word)
    (h : n.length ≤ 32) : read word = .ok n := by
  cases hword with
  | bits =>
    rw [read_slash, readLength_decimal h]
    rfl
  | netmask =>
    rw [read_slash, readLength_netmask h]
    rfl
  | host a => exact read_host a
  | default => rfl

/-- Each spelling is one word. -/
theorem IsSpelling.isWord {n : Network} {word : String} (hword : IsSpelling n word) :
    IsWord word := by
  have hslash (a : Ipv4) : IsWord (a.render ++ "/") := a.isWord_render.append (by decide)
  cases hword with
  | bits => exact (hslash _).append (isWord_decimal _).2
  | netmask => exact (hslash _).append n.netmask.isWord_render.2
  | host a => exact a.isWord_render
  | default => decide

/-- Writing chooses one of the spellings. -/
theorem isSpelling_render (n : Network) : IsSpelling n n.render := by
  obtain ⟨address, length⟩ := n
  rw [render]
  split
  · next hall =>
    rw [isDefault, Bool.and_eq_true, beq_iff_eq, beq_iff_eq] at hall
    obtain ⟨rfl, rfl⟩ := hall
    exact .default
  · split
    · next hhost =>
      obtain rfl : length = 32 := hhost
      exact .host address
    · exact .bits ⟨address, length⟩

/-- A network is written as one word. -/
theorem isWord_render (n : Network) : IsWord n.render :=
  n.isSpelling_render.isWord

/-- **A network is read back**, when it has a length that can be read. -/
theorem read_render {n : Network} (h : n.length ≤ 32) : read n.render = .ok n :=
  n.isSpelling_render.read_eq h

end Network

end RouterConfig
