import Mathlib.Data.List.Nodup
import RouterConfig.Dns
import RouterConfig.Filter.Interface
import RouterConfig.Proofs.Pp.RoundTrip
import RouterConfig.Proofs.Tunnel.RoundTrip
import RouterConfig.Route
import RouterConfig.Schedule

/-!
# Decoded records have distinct identities

Records are paired by identity, so two records with one identity would look like drift.  Six
features never give two.  Three of them put lines together under a key that is the identity
of the record (`firstOfEach`).  Tunnels and sessions come from groups, which have distinct
keys.  And a number of a choice of name servers is not given again once a record has it
(`DnsServerSelect.gives_of_mem_decode`).
-/

namespace RouterConfig

open Reconcilable Rtx

/-- Checking takes records out and puts none in. -/
theorem Decoded.nodup_map_concat_checked {ρ α κ : Type} {feature : String}
    {validate : ρ → Option ValidationError} {key : ρ → κ} {lineOf : α → Line} {recordOf : α → ρ}
    {l : List α} (h : (l.map fun a => key (recordOf a)).Nodup) :
    ((concat (l.map fun a => checked feature validate (lineOf a) (recordOf a))).records.map
      key).Nodup := by
  rw [records_concat_checked]
  refine h.sublist ?_
  have hsublist := (List.filter_sublist (p := fun r => (validate r).isNone)
    (l := l.map recordOf)).map key
  rwa [List.map_map] at hsublist

namespace InterfaceFilters

/-- The bindings of an interface are one record. -/
theorem nodup_identities (lines : List Line) :
    ((decodeLines lines).records.map identity).Nodup := by
  rw [decodeLines, Decoded.records_append, Decoded.records_concat_eq_nil, List.nil_append]
  · refine Decoded.nodup_map_concat_checked ?_
    exact (nodup_map_firstOfEach Reading.key _).sublist (List.filter_sublist.map Reading.key)
  · intro part hpart
    obtain ⟨f, -, rfl⟩ := List.mem_map.mp hpart
    rfl

end InterfaceFilters

namespace StaticRoute

/-- The gateways of a network are one record. -/
theorem nodup_identities (lines : List Line) :
    ((decodeLines lines).records.map identity).Nodup := by
  rw [decodeLines, Decoded.records_append, Decoded.records_concat_eq_nil, List.nil_append]
  · refine Decoded.nodup_map_concat_checked ?_
    exact (nodup_map_firstOfEach (fun r : Line × StaticRoute => r.2.network) _).sublist
      (List.filter_sublist.map _)
  · intro part hpart
    obtain ⟨r, -, rfl⟩ := List.mem_map.mp hpart
    cases r.fault? <;> rfl

end StaticRoute

namespace Schedule

/-- The commands of a number are one record, and so is the line of a session. -/
theorem nodup_identities (lines : List Line) :
    ((decodeLines lines).records.map identity).Nodup := by
  rw [decodeLines, Decoded.records_append, Decoded.records_concat_eq_nil, List.nil_append]
  · refine Decoded.nodup_map_concat_checked ?_
    exact (nodup_map_firstOfEach (fun p : Line × Schedule => p.2.key) _).sublist
      (List.filter_sublist.map _)
  · intro part hpart
    obtain ⟨f, -, rfl⟩ := List.mem_map.mp hpart
    rfl

end Schedule

namespace DnsServerSelect

/-- A line that is decoded gives its number, and no earlier line gave it. -/
theorem gives_of_mem_decode {earlier : List Reading} {r : Reading} {s : DnsServerSelect}
    (h : s ∈ (r.decode earlier).records) :
    r.gives s.id = true ∧ ∀ e ∈ earlier, e.gives s.id = false := by
  rw [Reading.decode] at h
  split at h
  · cases h
  · next t hcontent =>
    split at h
    · cases h
    · next hearlier =>
      obtain ⟨rfl, hvalid⟩ := Decoded.mem_records_checked.mp h
      refine ⟨?_, fun e he => ?_⟩
      · rw [Reading.gives, hcontent]
        simp [hvalid]
      · rw [Bool.eq_false_iff]
        exact fun hgives => hearlier (List.any_eq_true.mpr ⟨e, he, hgives⟩)

/-- At most one record is decoded from a line. -/
theorem nodup_decode (earlier : List Reading) (r : Reading) :
    ((r.decode earlier).records.map identity).Nodup := by
  rw [Reading.decode]
  split
  · exact List.nodup_nil
  · split
    · exact List.nodup_nil
    · unfold Decoded.checked
      split
      · exact List.nodup_singleton _
      · exact List.nodup_nil

/-- A number is given once. -/
theorem nodup_identities (lines : List Line) :
    ((decodeLines lines).records.map identity).Nodup := by
  rw [decodeLines, Decoded.concat, List.flatMap_map, List.map_flatMap, List.nodup_flatMap]
  refine ⟨fun p _ => nodup_decode p.1 p.2, ?_⟩
  refine (pairwise_withEarlier [] (readings lines)).imp fun {p q} hearlier => ?_
  refine List.disjoint_left.mpr fun id hp hq => ?_
  obtain ⟨s, hs, rfl⟩ := List.mem_map.mp hp
  obtain ⟨t, ht, hid⟩ := List.mem_map.mp hq
  have hgives := (gives_of_mem_decode hs).1
  have hnot := (gives_of_mem_decode ht).2 p.2 hearlier
  have hsame : t.id = s.id := hid
  rw [hsame, hgives] at hnot
  cases hnot

end DnsServerSelect

namespace Tunnel

/-- Groups with distinct numbers are tunnels with distinct numbers. -/
theorem nodup_identities {raw : String} {d : Decoded Tunnel}
    (h : decode (dialect.parse raw).stanza = .ok d) : (d.records.map identity).Nodup := by
  obtain ⟨own, hown, -, hids⟩ := exists_decode_parse raw
  obtain rfl : own = d := Except.ok.inj (hown.symm.trans h)
  have hmap : own.records.map printing.id = (own.records.map identity).map ContextId.number := by
    rw [List.map_map]
    rfl
  rw [hmap] at hids
  exact hids.of_map

end Tunnel

namespace PpInterface

/-- Groups with distinct selectors are sessions with distinct selectors. -/
theorem nodup_identities {raw : String} {d : Decoded PpInterface}
    (h : decode (dialect.parse raw).stanza = .ok d) : (d.records.map identity).Nodup := by
  have hids := (sound_of_decode_parse h).2
  have hmap : d.records.map printing.id =
      (d.records.map identity).map PpSelector.contextId := by
    rw [List.map_map]
    rfl
  rw [hmap] at hids
  exact hids.of_map

end PpInterface

end RouterConfig
