import RouterConfig.Proofs.Route.Merging
import RouterConfig.Proofs.Table

/-!
# Routes line by line

Reading the lines one after the other, the gateways of a line are put behind those that the
table holds for its network.  What is held after some lines is read off these lines
(`gathered`), and one more line changes it as the program changes its table
(`gather_gathered`).
-/

namespace RouterConfig.StaticRoute

/-- The gateways to a network, those of all its lines in order. -/
def hopsTo (rs : List Reading) (k : Network) : List NextHop :=
  ((routesOf rs).filter fun p => p.2.network = k).flatMap fun p => p.2.nextHops

/-- What is held after some lines. -/
def gathered (rs : List Reading) : Gathered Network (Line × List NextHop) StaticRoute where
  decoded := .concat (rs.map faultPart)
  table := Table.collected (fun p => p.2.network) (fun p => (p.1, hopsTo rs p.2.network))
    (routesOf rs)
  spoiled := rs.filterMap Reading.spoils?

section Step

variable {front : List Reading} {r : Reading} {p : Line × StaticRoute}

theorem routesOf_concat (front : List Reading) (r : Reading) :
    routesOf (front ++ [r]) = routesOf front ++ r.route?.toList :=
  filterMap_concat Reading.route? front r

/-- A line that cannot be read gives no gateways. -/
theorem table_gathered_of_none (h : r.route? = none) :
    (gathered (front ++ [r])).table = (gathered front).table := by
  have hroutes : routesOf (front ++ [r]) = routesOf front := by
    rw [routesOf_concat, h, Option.toList_none, List.append_nil]
  rw [gathered, gathered]
  simp only [hopsTo, hroutes]

/-- The gateways of a line stand behind the others to its network, and to no other. -/
theorem hopsTo_concat (h : r.route? = some p) (k : Network) :
    hopsTo (front ++ [r]) k =
      hopsTo front k ++ if p.2.network = k then p.2.nextHops else [] := by
  rw [hopsTo, routesOf_concat, h, Option.toList_some, List.filter_append, List.flatMap_append,
    ← hopsTo, List.filter_singleton]
  by_cases hk : p.2.network = k
  · rw [if_pos hk, decide_eq_true hk, cond_true, List.flatMap_singleton]
  · rw [if_neg hk, decide_eq_false hk, cond_false, List.flatMap_nil]

/-- A line changes the entry of its network, which may be a new one. -/
theorem table_gathered_of_some (h : r.route? = some p) :
    (gathered (front ++ [r])).table = Table.change p.2.network (p.1, [])
      (fun e => (e.1, e.2 ++ p.2.nextHops)) (gathered front).table := by
  rw [gathered, gathered]
  simp only [routesOf_concat, h, Option.toList_some]
  refine (Table.change_collected (fun q _ hq => ?_) (fun q _ hq => ?_) fun hnew => ?_).symm
  · rw [hopsTo_concat h, if_neg fun he => hq he.symm, List.append_nil]
  · rw [hopsTo_concat h, if_pos hq.symm]
  · have hnone : hopsTo front p.2.network = [] := by
      rw [hopsTo, List.filter_eq_nil_iff.mpr, List.flatMap_nil]
      intro q hq hsame
      exact hnew (List.mem_map.mpr ⟨q, hq, of_decide_eq_true hsame⟩)
    rw [hopsTo_concat h, if_pos rfl, hnone]

/-- **One more line** changes what is held in the way of the program. -/
theorem gather_gathered (front : List Reading) (r : Reading) :
    gather (gathered front) r = gathered (front ++ [r]) := by
  have hdecoded : (gathered (front ++ [r])).decoded = (gathered front).decoded ++ faultPart r :=
    Decoded.concat_map_concat faultPart front r
  have hspoiled : (gathered (front ++ [r])).spoiled =
      (gathered front).spoiled ++ r.spoils?.toList := filterMap_concat Reading.spoils? front r
  obtain ⟨line, content⟩ := r
  rcases content with fault | ⟨network, fault | hops⟩
  · exact Gathered.ext hdecoded.symm (table_gathered_of_none rfl).symm hspoiled.symm
  · exact Gathered.ext hdecoded.symm (table_gathered_of_none rfl).symm hspoiled.symm
  · have hroute : Reading.route? ⟨line, .ok (network, .ok hops)⟩ = some (line, ⟨network, hops⟩) :=
      rfl
    refine Gathered.ext ?_ (table_gathered_of_some hroute).symm ?_
    · exact (hdecoded.trans (Decoded.append_empty _)).symm
    · exact (hspoiled.trans (List.append_nil _)).symm

end Step

/-- **Decoding line by line** comes to the same. -/
theorem gatherLines_eq (lines : List Line) : gatherLines lines = decodeLines lines := by
  have hrun : (readings lines).foldl gather (gathered []) = gathered (readings lines) :=
    foldl_eq_of_step fun front r _ => gather_gathered front r
  have hstart : gathered [] = {} := rfl
  rw [gatherLines, ← hstart, hrun, Gathered.finish_collected (by rfl), decodeLines_eq]
  rfl

end RouterConfig.StaticRoute
