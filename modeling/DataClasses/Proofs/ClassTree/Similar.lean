import DataClasses.Generation

/-!
# Classes do not depend on data

Two documents that differ only in the values of their scalars, and in the elements of lists behind the
first ones, have the same classes and the same source text. What a document has in common with those is
its outline, and the classes are made of nothing else.
-/

set_option autoImplicit false

namespace DataClasses

namespace Json

mutual

/-- Documents of one make: scalars of the same kind, texts that both are timestamps or both are not,
lists with first elements of one make, and objects with the same keys in the same order. -/
inductive Similar : Json → Json → Prop where
  | null : Similar .null .null
  | bool (b c : Bool) : Similar (.bool b) (.bool c)
  | integer (m n : Int) : Similar (.integer m) (.integer n)
  | float (x y : Binary64) : Similar (.float x) (.float y)
  | str {s t : String} (h : Timestamp.isTimestamp s = Timestamp.isTimestamp t) : Similar (.str s) (.str t)
  | none : Similar (.arr []) (.arr [])
  | arr {first first' : Json} (rest rest' : List Json) (h : Similar first first') :
      Similar (.arr (first :: rest)) (.arr (first' :: rest'))
  | obj {members members' : List (String × Json)} (h : SimilarMembers members members') :
      Similar (.obj members) (.obj members')

inductive SimilarMembers : List (String × Json) → List (String × Json) → Prop where
  | nil : SimilarMembers [] []
  | cons (key : String) {value value' : Json} {members members' : List (String × Json)}
      (first : Similar value value') (rest : SimilarMembers members members') :
      SimilarMembers ((key, value) :: members) ((key, value') :: members')

end

theorem SimilarMembers.keys : {members members' : List (String × Json)} →
    SimilarMembers members members' → members.map (·.1) = members'.map (·.1)
  | _, _, .nil => rfl
  | _, _, .cons key _ rest => congrArg (key :: ·) rest.keys

def outlineText (s : String) : String := if Timestamp.isTimestamp s then "/Date(0)/" else ""

theorem isTimestamp_outlineText (s : String) :
    Timestamp.isTimestamp (outlineText s) = Timestamp.isTimestamp s := by
  have hdate : Timestamp.isTimestamp "/Date(0)/" = true := by decide
  have hempty : Timestamp.isTimestamp "" = false := by decide
  rw [outlineText]
  cases Timestamp.isTimestamp s
  · exact hempty
  · exact hdate

mutual

/-- A document without its data: scalars of its kinds only, and lists of one element at the most. -/
def outline : Json → Json
  | .null => .null
  | .bool _ => .bool false
  | .integer _ => .integer 0
  | .float _ => .float .zero
  | .str s => .str (outlineText s)
  | .arr [] => .arr []
  | .arr (first :: _) => .arr [outline first]
  | .obj members => .obj (outlines members)

def outlines : List (String × Json) → List (String × Json)
  | [] => []
  | (key, value) :: members => (key, outline value) :: outlines members

end

mutual

theorem similar_outline : (value : Json) → Similar value value.outline
  | .null => .null
  | .bool _ => .bool _ _
  | .integer _ => .integer _ _
  | .float _ => .float _ _
  | .str s => .str (isTimestamp_outlineText s).symm
  | .arr [] => .none
  | .arr (first :: rest) => .arr rest [] (similar_outline first)
  | .obj members => .obj (similar_outlines members)

theorem similar_outlines : (members : List (String × Json)) → SimilarMembers members (outlines members)
  | [] => .nil
  | (key, value) :: members => .cons key (similar_outline value) (similar_outlines members)

end

end Json

namespace ClassTree

open Json (Similar SimilarMembers)

variable (capitalize : Bool)

-- By induction on how the documents are alike. They are read as one function of the classes found before,
-- so a class that takes the place of another does so on both sides.
mutual

theorem typeOf_similar : {a b : Json} → Similar a b → ∀ name : String,
    typeOf capitalize name a = typeOf capitalize name b
  | _, _, .null, _ => rfl
  | _, _, .bool _ _, _ => rfl
  | _, _, .integer _ _, _ => rfl
  | _, _, .float _ _, _ => rfl
  | _, _, .str h, name => by
    funext found
    rw [typeOf, typeOf, h]
  | _, _, .none, _ => rfl
  | _, _, .arr rest rest' h, name => by
    funext found
    rw [typeOf, typeOf, listType_similar h rest rest']
  | _, _, .obj h, name => by
    funext found
    rw [typeOf, typeOf, namesOf, namesOf, h.keys, propertiesOf_similar h]

theorem listType_similar : {first first' : Json} → Similar first first' → ∀ (rest rest' : List Json)
    (name : String), listType capitalize name (first :: rest) = listType capitalize name (first' :: rest')
  | _, _, .null, _, _, _ => rfl
  | _, _, .bool _ _, _, _, _ => rfl
  | _, _, .integer _ _, _, _, _ => rfl
  | _, _, .float _ _, _, _, _ => rfl
  | _, _, .str h, _, _, name => by
    funext found
    rw [listType, listType, typeOf, typeOf, h] <;> exact nofun
  | _, _, .none, _, _, _ => rfl
  | _, _, .arr inner inner' h, _, _, name => by
    funext found
    rw [listType, listType, listType_similar h inner inner']
  | _, _, .obj h, _, _, name => by
    funext found
    rw [listType, listType, typeOf, typeOf, namesOf, namesOf, h.keys, propertiesOf_similar h] <;> exact nofun

theorem propertiesOf_similar : {members members' : List (String × Json)} →
    SimilarMembers members members' → ∀ names : List String,
    propertiesOf capitalize names members = propertiesOf capitalize names members'
  | _, _, .nil, _ => rfl
  | _, _, .cons _ first rest, [] => rfl
  | _, _, .cons _ first rest, name :: names => by
    funext found
    rw [propertiesOf, propertiesOf, typeOf_similar first, propertiesOf_similar rest]

end

theorem rootMembers_similar {a b : Json} (h : Similar a b) :
    SimilarMembers (rootMembers a) (rootMembers b) := by
  cases h with
  | obj h => exact h
  | arr _ _ h =>
    cases h with
    | obj h => exact h
    | _ => exact .nil
  | _ => exact .nil

theorem ofDocument_similar {a b : Json} (h : Similar a b) (settings : Settings) :
    ofDocument a settings = ofDocument b settings := by
  have hmembers := rootMembers_similar h
  rw [ofDocument, ofDocument, namesOf, namesOf, hmembers.keys, propertiesOf_similar _ hmembers]

/-- Similar documents have the same classes and the same source text. -/
theorem source_of_similar {a b : Json} (h : Similar a b) (settings : Settings) :
    ofDocument a settings = ofDocument b settings ∧
      source (ofDocument a settings) settings = source (ofDocument b settings) settings :=
  ⟨ofDocument_similar h settings, congrArg (source · settings) (ofDocument_similar h settings)⟩

def order : Json :=
  .obj [("number", .integer 7), ("placed", .str "2024-05-01T10:00:00Z"),
    ("item", .obj [("name", .str "pen"), ("price", .float .zero)]),
    ("items", .arr [.obj [("codes", .arr [.integer 1, .null])], .str "ink"])]

def laterOrder : Json :=
  .obj [("number", .integer (-1)), ("placed", .str "/Date(1714557600000)/"),
    ("item", .obj [("name", .str ""), ("price", .float ⟨true, 3, -1⟩)]),
    ("items", .arr [.obj [("codes", .arr [.integer 50])], .obj [("note", .bool true)], .null])]

theorem order_similar : Similar order laterOrder :=
  .obj (.cons _ (.integer _ _) (.cons _ (.str (by decide))
    (.cons _ (.obj (.cons _ (.str (by decide)) (.cons _ (.float _ _) .nil)))
      (.cons _ (.arr _ _ (.obj (.cons _ (.arr _ _ (.integer _ _)) .nil))) .nil))))

theorem source_of_order :
    Similar order laterOrder ∧ ofDocument order {} = ofDocument laterOrder {} ∧
      source (ofDocument order {}) {} = source (ofDocument laterOrder {}) {} :=
  ⟨order_similar, source_of_similar order_similar {}⟩

/-- No scalar of a document reaches its classes, nor does an element of a list behind the first:
they are those of the outline. -/
theorem ofDocument_outline (document : Json) (settings : Settings) :
    ofDocument document.outline settings = ofDocument document settings :=
  (ofDocument_similar (Json.similar_outline document) settings).symm

end ClassTree

/-- Two texts with similar documents give one source text. -/
theorem sourceFor_of_similar {text text' : String} {a b : Json} (ha : Sample.read text = .ok a)
    (hb : Sample.read text' = .ok b) (h : a.Similar b) (settings : Settings) :
    sourceFor text settings = sourceFor text' settings := by
  rw [sourceFor, sourceFor, classesFor, classesFor, ha, hb]
  exact congrArg (fun tree => Except.ok (ClassTree.source tree settings))
    (ClassTree.ofDocument_similar h settings)

end DataClasses
