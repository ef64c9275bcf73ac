import CellFormat.Text
/-!
# Markup

Elements with attributes, and the removal of tags from a text. A tag is an
opening angle bracket, at least one character that is no closing one, and a
closing one.
-/

namespace CellFormat.Markup

/-! ## Writing -/

/-- An opening tag. -/
def openTag (name : Text) (attributes : List (Text × Text)) : Text :=
  '<' :: name
    ++ attributes.flatMap (fun (key, value) => ' ' :: key ++ '=' :: '"' :: value ++ ['"'])
    ++ ['>']

/-- A closing tag. -/
def closeTag (name : Text) : Text := '<' :: '/' :: name ++ ['>']

/-- An element around its content, which is taken as it is. -/
def element (name : Text) (attributes : List (Text × Text)) (content : Text) : Text :=
  openTag name attributes ++ content ++ closeTag name

/-! ## Removing tags -/

/-- The text after a tag, from after its opening bracket; none if there is no tag. -/
def afterTag? : Text → Option Text
  | [] => none
  | c :: t => if c = '>' then none else (Text.splitFirst? '>' t).map (·.2)

theorem length_of_afterTag? {t rest : Text} (h : afterTag? t = some rest) :
    rest.length < t.length := by
  cases t with
  | nil => cases h
  | cons c t =>
    simp only [afterTag?] at h
    split at h
    · cases h
    · obtain ⟨⟨b, a⟩, hs, rfl⟩ := Option.map_eq_some_iff.1 h
      exact Nat.lt_succ_of_lt (Text.length_of_splitFirst? hs)

/-- The text with a space in place of each tag. -/
def stripTags : Text → Text
  | [] => []
  | c :: t =>
    if c = '<' then
      match _ : afterTag? t with
      | some rest => ' ' :: stripTags rest
      | none => c :: stripTags t
    else c :: stripTags t
termination_by t => t.length
decreasing_by
  · have := length_of_afterTag? ‹_›; simp only [List.length_cons]; omega
  · simp
  · simp

end CellFormat.Markup
