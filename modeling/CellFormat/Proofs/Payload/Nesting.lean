import CellFormat.Proofs.Json.Nesting
import CellFormat.Proofs.Payload.Depth
/-!
# The nesting of a payload's text

The depth of a payload is what its text shows: `nesting_write` counts the
brackets.
-/

namespace CellFormat

open Json

section
variable {β : Type} {write : β → Text}

theorem Json.itemsNest_optional (name : Text) (b? : Option β) {k : β → Nat} (h : ∀ b, Nests (k b) (write b)) :
    ItemsNest (b?.elim 0 k) ((optionalMember name write b?).map memberText) := by
  cases b? with
  | none => exact itemsNest_nil
  | some b => exact itemsNest_singleton (nests_member name (h b))

theorem Json.itemsNest_optional_zero (name : Text) (b? : Option β) (h : ∀ b, Nests 0 (write b)) :
    ItemsNest 0 ((optionalMember name write b?).map memberText) := by
  have hzero : (b?.elim 0 fun _ => 0) = 0 := by cases b? <;> rfl
  exact hzero ▸ itemsNest_optional name b? h

end

theorem DisplayFormat.nests_write (f : DisplayFormat) : Nests 1 f.write :=
  ((itemsNest_singleton (nests_member "fPattern".toList (nests_string f.pattern))).append
    (itemsNest_optional_zero "fLocale".toList f.locale nests_string)).object

theorem HeaderOverride.nests_write (h : HeaderOverride) : Nests 1 h.write :=
  (itemsNest_singleton (nests_member "fHeader".toList (nests_string h.header))).object

theorem HeaderOverride.nests_writeList (hs : List HeaderOverride) :
    Nests (if hs = [] then 1 else 2) (writeList (hs.map HeaderOverride.write)) := by
  have hitems : ItemsNest (if hs = [] then 0 else 1) (hs.map HeaderOverride.write) := by
    induction hs with
    | nil => exact itemsNest_nil
    | cons h hs ih =>
      have hmore := (itemsNest_singleton h.nests_write).append ih
      have hone : max 1 (if hs = [] then 0 else 1) = 1 := by split <;> rfl
      rw [hone] at hmore
      exact hmore
  have hlist := hitems.list
  split at hlist
  · next hnil => rwa [if_pos hnil]
  · next hne => rwa [if_neg hne]

theorem Cell.itemsNest_members (c : Cell) : ItemsNest c.depth (c.members.map memberText) := by
  have hkind := itemsNest_singleton (nests_member "fType".toList (nests_string c.kind.tag))
  have htext := itemsNest_optional_zero "fStr".toList c.text nests_string
  have hnumber := itemsNest_optional_zero "fNum".toList c.number nests_interchange
  have huri := itemsNest_optional_zero "fUri".toList c.uri nests_string
  have hformat := itemsNest_optional "fDisplayFormat".toList c.displayFormat DisplayFormat.nests_write
  have hheaders := itemsNest_optional "fHeaders".toList c.headerOverrides HeaderOverride.nests_writeList
  have hheader := itemsNest_singleton (nests_member "fHeader".toList (nests_bool c.isHeader))
  have hrows := itemsNest_singleton (nests_member "fRows".toList (nests_ofNat c.rows.toNat))
  have hcols := itemsNest_singleton (nests_member "fCols".toList (nests_ofNat c.cols.toNat))
  have hall := (((((hkind.append htext).append hnumber).append huri).append hformat).append hheaders).append
    (hheader.append (hrows.append hcols))
  simp only [Nat.zero_max, Nat.max_zero, Nat.max_self] at hall
  simp only [Cell.members, List.map_append]
  exact hall

namespace Payload

mutual

theorem nests_write : (p : Payload) → Nests p.depth p.write
  | ⟨c, ps⟩ => by
    have hcells : ItemsNest (depthOfCells ps)
        ((if writeCells ps = [] then [] else [("fArray".toList, writeList (writeCells ps))]).map memberText) := by
      -- The list of the cells is a container of its own, but it is left out if it is empty.
      have hitems := itemsNest_writeCells ps
      cases ps with
      | nil => exact itemsNest_nil
      | cons p ps =>
        have hpos : depthOfCells (p :: ps) - 1 + 1 = depthOfCells (p :: ps) := by
          rw [depthOfCells]
          omega
        rw [if_neg (by rw [writeCells]; exact List.cons_ne_nil _ _), ← hpos]
        exact itemsNest_singleton (nests_member _ hitems.list)
    have hall := c.itemsNest_members.append hcells
    rw [← List.map_append] at hall
    rw [write, depth, Nat.add_comm]
    exact hall.object

theorem itemsNest_writeCells : (ps : List Payload) → ItemsNest (depthOfCells ps - 1) (writeCells ps)
  | [] => itemsNest_nil
  | p :: ps => by
    have hall := (itemsNest_singleton (nests_write p)).append (itemsNest_writeCells ps)
    have hdepth : depthOfCells (p :: ps) - 1 = max p.depth (depthOfCells ps - 1) := by
      rw [depthOfCells]
      omega
    rw [hdepth]
    exact hall

end

theorem nesting_write (p : Payload) : nesting p.write = p.depth := (nests_write p).nesting_eq

end Payload

end CellFormat
