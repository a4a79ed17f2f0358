import RouterConfig.Proofs.Stanza.Groups
import RouterConfig.Proofs.Text.Numerals
import RouterConfig.Proofs.Text.Phrases

/-!
# Lines that are known by their front

Whether a line opens, leaves or closes a group is in most cases decided by its first
few characters.  A *front* is such a beginning.  When the fixed text of a pattern and
a front differ within the shorter one of them, no line with that front matches,
whatever comes behind (`match?_of_apart`).  So the lines with a front stay in a group
as soon as a finite check of the front says so (`stays_of_front`).  And a line opens
the group of the definition whose fixed text it starts with (`opens_of_stem`).
-/

namespace RouterConfig

open Text Scanner

theorem match?_of_apart {p : Pattern} {front : String} (h : Apart p.stem front) {text : String}
    {rest : List Char} (htext : text.toList = front.toList ++ rest) : p.match? text = none := by
  rw [Pattern.match?, htext, after?_of_apart h]

theorem isMatch_of_apart {p : Pattern} {front : String} (h : Apart p.stem front) {text : String}
    {rest : List Char} (htext : text.toList = front.toList ++ rest) : p.isMatch text = false := by
  rw [Pattern.isMatch, match?_of_apart h htext]
  rfl

/-- Lines with the front stay in an open group. -/
structure KeepsFront (definitions : List ContextDefinition) (d : ContextDefinition)
    (front : String) : Prop where
  kept : isSkipped front = false
  header : ∀ e ∈ definitions, Apart e.header.stem front
  leave : ∀ p ∈ d.leave, Apart p.stem front
  isMember : ∃ lead ∈ d.memberStarts, lead.toList <+: front.toList

instance (definitions : List ContextDefinition) (d : ContextDefinition) (front : String) :
    Decidable (KeepsFront definitions d front) :=
  decidable_of_iff
    (isSkipped front = false ∧ (∀ e ∈ definitions, Apart e.header.stem front) ∧
      (∀ p ∈ d.leave, Apart p.stem front) ∧ ∃ lead ∈ d.memberStarts, lead.toList <+: front.toList)
    ⟨fun h => ⟨h.1, h.2.1, h.2.2.1, h.2.2.2⟩, fun h => ⟨h.kept, h.header, h.leave, h.isMember⟩⟩

variable {definitions : List ContextDefinition} {d : ContextDefinition} {front text : String}
  {rest : List Char}

/-- A front decides that a line is not skipped. -/
theorem isSkipped_of_front (h : isSkipped front = false)
    (htext : text.toList = front.toList ++ rest) : isSkipped text = false := by
  unfold isSkipped at h ⊢
  rw [htext]
  cases hfront : front.toList with
  | nil =>
    rw [hfront] at h
    exact absurd h (by simp)
  | cons c cs =>
    rw [hfront] at h
    exact h

/-- A front decides that a line opens no group. -/
theorem header?_of_front (h : ∀ e ∈ definitions, Apart e.header.stem front)
    (htext : text.toList = front.toList ++ rest) : header? definitions text = none := by
  rw [header?, List.findSome?_eq_none_iff]
  intro e he
  rw [ContextDefinition.headerKey?, Pattern.capture?_eq, match?_of_apart (h e he) htext]
  rfl

/-- A front decides that a line matches none of some patterns. -/
theorem any_isMatch_of_front {patterns : List Pattern} (h : ∀ p ∈ patterns, Apart p.stem front)
    (htext : text.toList = front.toList ++ rest) :
    (patterns.any fun p => LinePattern.isMatch p text) = false := by
  rw [List.any_eq_false]
  intro p hp
  rw [Pattern.linePattern_isMatch_eq, isMatch_of_apart (h p hp) htext]
  decide

/-- A front decides that a line does not leave a group. -/
theorem isLeave_of_front (h : ∀ p ∈ d.leave, Apart p.stem front)
    (htext : text.toList = front.toList ++ rest) : d.isLeave text = false :=
  any_isMatch_of_front h htext

/-- **A front decides that a line stays.** -/
theorem stays_of_front (h : KeepsFront definitions d front)
    (htext : text.toList = front.toList ++ rest) : Stays definitions d text := by
  refine ⟨isSkipped_of_front h.kept htext, header?_of_front h.header htext,
    isLeave_of_front h.leave htext, ?_⟩
  obtain ⟨lead, hlead, behind, hbehind⟩ := h.isMember
  rw [ContextDefinition.isMember, Bool.or_eq_true, List.any_eq_true]
  refine Or.inr ⟨lead, hlead, startsWith_eq_true_iff.mpr ⟨behind ++ rest, ?_⟩⟩
  rw [htext, ← hbehind, List.append_assoc]

/-- A front decides that a line is no trailer. -/
theorem isTrailer_of_front (h : ∀ p ∈ d.trailer, Apart p.stem front)
    (htext : text.toList = front.toList ++ rest) : d.isTrailer text = false :=
  any_isMatch_of_front h htext

/-! ## Lines that open a group -/

/-- The key on a line that starts with the fixed text of a header. -/
theorem headerKey?_of_stem {slot : PatternSlot} (hslot : d.header.slot = some slot) {word : String}
    (hword : slot.admits word.toList = true)
    (htext : text.toList = d.header.stem.toList ++ word.toList) :
    d.headerKey? text = some (.read word) := by
  rw [ContextDefinition.headerKey?, Pattern.capture?_eq, Pattern.match?, htext, after?_append,
    hslot]
  simp [hword]

/-- **The fixed text of a header decides which group a line opens**, when no definition
in front of that one has a header that goes on in the same way. -/
theorem opens_of_stem (before after : List ContextDefinition)
    (hkept : isSkipped d.header.stem = false)
    (hbefore : ∀ e ∈ before, Apart e.header.stem d.header.stem) {slot : PatternSlot}
    (hslot : d.header.slot = some slot) {word : String} (hword : slot.admits word.toList = true)
    (htext : text.toList = d.header.stem.toList ++ word.toList) :
    Opens (before ++ d :: after) d (.read word) text := by
  refine ⟨isSkipped_of_front hkept htext, ?_⟩
  have hnone : before.findSome? (fun e => (e.headerKey? text).map fun id =>
      (e, (⟨e.kind, id⟩ : ContextKey))) = none := by
    rw [List.findSome?_eq_none_iff]
    intro e he
    rw [ContextDefinition.headerKey?, Pattern.capture?_eq, match?_of_apart (hbefore e he) htext]
    rfl
  rw [header?, List.findSome?_append, hnone, List.findSome?_cons,
    headerKey?_of_stem hslot hword htext]
  rfl

theorem isDecimalDigit_of_isDigit {c : Char} (h : isDigit c = true) : isDecimalDigit c = true := by
  obtain ⟨hlow, hhigh⟩ := isDigit_iff.mp h
  rw [isDecimalDigit, List.any_eq_true]
  refine ⟨0x30, by decide, ?_⟩
  rw [Bool.and_eq_true, decide_eq_true_eq, decide_eq_true_eq]
  omega

theorem isDigitRun_numeral (n : UInt32) : isDigitRun (numeral n).toList = true := by
  rw [numeral, String.toList_ofList, isDigitRun, Bool.and_eq_true]
  refine ⟨?_, ?_⟩
  · have hempty : (decimal n.toNat).isEmpty = false := by
      rw [List.isEmpty_eq_false_iff]
      exact decimal_ne_nil n.toNat
    rw [hempty]
    rfl
  · rw [List.all_eq_true]
    exact fun c hc => isDecimalDigit_of_isDigit (isDigit_of_mem_decimal n.toNat c hc)

@[simp] theorem ContextId.read_numeral (n : UInt32) : read (numeral n) = .number n := by
  rw [read, readNumber?_numeral]

end RouterConfig
