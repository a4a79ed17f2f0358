import RouterConfig.Proofs.Reconcile.Identities
import RouterConfig.Proofs.Table

/-!
# Choices of name servers line by line

A choice stands on one line, and the table is there to tell which numbers were given.  A
line that breaks a rule is rejected at once and does not come into the table, so its number
may be given by a later line.  The numbers in the table after some lines are those that
these lines give (`isSome_lookup?_gathered`).
-/

namespace RouterConfig.DnsServerSelect

open Text

/-- What is decoded from lines that were read. -/
def decodeReadings (rs : List Reading) : Decoded DnsServerSelect :=
  .concat ((withEarlier [] rs).map fun p => p.2.decode p.1)

/-- What is held after some lines. -/
def gathered (rs : List Reading) : Gathered UInt32 DnsServerSelect DnsServerSelect where
  decoded := ⟨[], (decodeReadings rs).errors⟩
  table := (decodeReadings rs).records.map fun s => (s.id, s)

/-- A line is decoded in the light of all lines before it. -/
theorem decodeReadings_concat (front : List Reading) (r : Reading) :
    decodeReadings (front ++ [r]) = decodeReadings front ++ r.decode front := by
  rw [decodeReadings, withEarlier_concat, Decoded.concat_map_concat]
  rfl

/-- A number that no earlier line gives is decoded from the line that gives it. -/
theorem exists_mem_decode {earlier : List Reading} {r : Reading} {id : UInt32}
    (h : r.gives id = true) (hnot : (earlier.any fun e => e.gives id) = false) :
    ∃ s ∈ (r.decode earlier).records, s.id = id := by
  rw [Reading.gives] at h
  split at h
  · next s hcontent =>
    rw [Bool.and_eq_true, beq_iff_eq, Option.isNone_iff_eq_none] at h
    obtain ⟨rfl, hvalid⟩ := h
    rw [Reading.decode, hcontent]
    simp only [hnot]
    exact ⟨s, Decoded.mem_records_checked.mpr ⟨rfl, hvalid⟩, rfl⟩
  · cases h

/-- **A number is in the table** exactly if some line gave it. -/
theorem exists_mem_decodeReadings_iff {rs : List Reading} {id : UInt32} :
    (∃ s ∈ (decodeReadings rs).records, s.id = id) ↔ (rs.any fun r => r.gives id) = true := by
  induction rs using List.reverseRecOn with
  | nil => simp [decodeReadings, withEarlier, Decoded.empty]
  | append_singleton front r ih =>
    rw [decodeReadings_concat, Decoded.records_append, List.any_append, List.any_cons, List.any_nil,
      Bool.or_false, Bool.or_eq_true, ← ih]
    constructor
    · rintro ⟨s, hs, rfl⟩
      rcases List.mem_append.mp hs with hfront | hlast
      · exact Or.inl ⟨s, hfront, rfl⟩
      · exact Or.inr (gives_of_mem_decode hlast).1
    · intro h
      by_cases hfront : ∃ s ∈ (decodeReadings front).records, s.id = id
      · obtain ⟨s, hs, hid⟩ := hfront
        exact ⟨s, List.mem_append_left _ hs, hid⟩
      · -- then the last line is the first that gives the number
        have hnot : (front.any fun e => e.gives id) = false :=
          Bool.eq_false_iff.mpr (ih.not.mp hfront)
        obtain ⟨s, hs, hid⟩ := exists_mem_decode (h.resolve_left hfront) hnot
        exact ⟨s, List.mem_append_right _ hs, hid⟩

theorem isSome_lookup?_gathered {rs : List Reading} {id : UInt32} :
    (Table.lookup? id (gathered rs).table).isSome = rs.any fun r => r.gives id := by
  rw [Bool.eq_iff_iff, ← exists_mem_decodeReadings_iff, Table.lookup?, Option.isSome_map,
    List.find?_isSome]
  simp [gathered]

section Step

variable {front : List Reading} {r : Reading}

/-- A line that gives no record is rejected, and the table stays. -/
theorem gathered_of_rejected {reason : RejectReason}
    (h : r.decode front = .rejected featureName r.line reason) :
    (gathered front).reject featureName r.line reason none = gathered (front ++ [r]) := by
  have hdecoded : (gathered (front ++ [r])).decoded =
      (gathered front).decoded ++ .rejected featureName r.line reason := by
    rw [gathered, decodeReadings_concat, h]
    rfl
  have htable : (gathered (front ++ [r])).table = (gathered front).table := by
    rw [gathered, decodeReadings_concat, h, Decoded.records_append]
    exact congrArg (List.map _) (List.append_nil _)
  exact Gathered.ext hdecoded.symm htable.symm rfl

/-- A record comes into the table behind the others. -/
theorem gathered_of_single {s : DnsServerSelect} (h : r.decode front = .single s)
    (hnew : (Table.lookup? s.id (gathered front).table).isSome = false) :
    { gathered front with table := Table.insert s.id s (gathered front).table } =
      gathered (front ++ [r]) := by
  have hdecoded : (gathered (front ++ [r])).decoded = (gathered front).decoded := by
    rw [gathered, decodeReadings_concat, h, Decoded.errors_append]
    exact congrArg (Decoded.mk []) (List.append_nil _)
  have htable : (gathered (front ++ [r])).table = (gathered front).table ++ [(s.id, s)] := by
    rw [gathered, decodeReadings_concat, h, Decoded.records_append, List.map_append]
    rfl
  rw [Table.insert, Table.change, hnew, if_neg Bool.false_ne_true, ← htable]
  exact Gathered.ext hdecoded.symm rfl rfl

/-- **One more line** changes what is held in the way of the program. -/
theorem gather_gathered (front : List Reading) (r : Reading) :
    gather (gathered front) r = gathered (front ++ [r]) := by
  cases hcontent : r.content with
  | error fault =>
    rw [gather, hcontent]
    exact gathered_of_rejected (by rw [Reading.decode, hcontent])
  | ok s =>
    rw [gather, hcontent]
    simp only
    cases hgiven : (Table.lookup? s.id (gathered front).table).isSome with
    | true =>
      refine gathered_of_rejected ?_
      rw [Reading.decode, hcontent]
      exact if_pos (isSome_lookup?_gathered.symm.trans hgiven)
    | false =>
      have hdecode : r.decode front = .checked featureName validate r.line s := by
        have hnone : (front.any fun e => e.gives s.id) = false :=
          isSome_lookup?_gathered.symm.trans hgiven
        rw [Reading.decode, hcontent]
        simp only [hnone]
        rfl
      rw [if_neg Bool.false_ne_true]
      cases hvalid : validate s with
      | none => exact gathered_of_single (hdecode.trans (Decoded.checked_of_none hvalid)) hgiven
      | some error =>
        refine gathered_of_rejected (hdecode.trans ?_)
        rw [Decoded.checked, hvalid]

end Step

/-- What is held in the end is what is decoded. -/
theorem finish_gathered (rs : List Reading) :
    ((gathered rs).finish fun _ s => .single s) = decodeReadings rs := by
  have hkept : ((gathered rs).table.filter fun e => !(gathered rs).spoiled.contains e.1) =
      (gathered rs).table := List.filter_eq_self.mpr fun _ _ => rfl
  have hrecords : (gathered rs).table.map (fun e => Decoded.single e.2) =
      (decodeReadings rs).records.map .single := by
    rw [gathered, List.map_map]
    rfl
  rw [Gathered.finish, Decoded.foldl_append_unless, hkept, hrecords, Decoded.concat_map_single]
  exact congrArg (Decoded.mk _) (List.append_nil _)

/-- **Decoding line by line** comes to the same. -/
theorem gatherLines_eq (lines : List Line) : gatherLines lines = decodeLines lines := by
  have hrun : (readings lines).foldl gather (gathered []) = gathered (readings lines) :=
    foldl_eq_of_step fun front r _ => gather_gathered front r
  have hstart : gathered [] = {} := rfl
  rw [gatherLines, ← hstart, hrun, finish_gathered]
  rfl

end RouterConfig.DnsServerSelect
