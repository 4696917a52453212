import Mathlib.Data.List.Zip
import PipeSql.Json

set_option autoImplicit false

namespace PipeSql.Json

-- Forms that lie within themselves go by a name.
inductive Form (ν : Type) where
  | text
  | bool
  | nullable (inner : Form ν)
  | list (item : Form ν)
  | choice (names : List String)
  | record (fields : List (String × Form ν))
  | kinded (kinds : List (String × List (String × Form ν)))
  | reference (name : ν)

variable {ν : Type}

mutual

inductive Fits (definition : ν → Form ν) : Form ν → Json → Prop where
  | text (value : String) : Fits definition .text (.text value)
  | bool (value : Bool) : Fits definition .bool (.bool value)
  | null (inner : Form ν) : Fits definition (.nullable inner) .null
  | present {inner : Form ν} {json : Json} (fits : Fits definition inner json) : Fits definition (.nullable inner) json
  | list {item : Form ν} {items : List Json} (fits : ∀ json ∈ items, Fits definition item json) :
      Fits definition (.list item) (.list items)
  | choice {names : List String} {name : String} (known : name ∈ names) : Fits definition (.choice names) (.text name)
  | record {fields : List (String × Form ν)} {values : List (String × Json)} (fits : FitsAll definition fields values) :
      Fits definition (.record fields) (.object values)
  | kinded {kinds : List (String × List (String × Form ν))} {kind : String} {fields : List (String × Form ν)}
      {values : List (String × Json)} (known : (kind, fields) ∈ kinds) (fits : FitsAll definition fields values) :
      Fits definition (.kinded kinds) (.object (("kind", .text kind) :: values))
  | reference {name : ν} {json : Json} (fits : Fits definition (definition name) json) :
      Fits definition (.reference name) json

-- Each field is there under its name, in order, and no other.
inductive FitsAll (definition : ν → Form ν) : List (String × Form ν) → List (String × Json) → Prop where
  | nil : FitsAll definition [] []
  | cons {name : String} {form : Form ν} {json : Json} {fields : List (String × Form ν)} {values : List (String × Json)}
      (first : Fits definition form json) (rest : FitsAll definition fields values) :
      FitsAll definition ((name, form) :: fields) ((name, json) :: values)

end

theorem fits_option {α : Type} {definition : ν → Form ν} {form : Form ν} {encode : α → Json}
    (each : ∀ value, Fits definition form (encode value)) (value : Option α) :
    Fits definition (.nullable form) (ofOption encode value) := by
  cases value with
  | none => exact .null form
  | some value => exact .present (each value)

theorem fits_list {α : Type} {definition : ν → Form ν} {form : Form ν} {encode : α → Json} {values : List α}
    (each : ∀ value ∈ values, Fits definition form (encode value)) :
    Fits definition (.list form) (.list (values.map encode)) := by
  refine .list fun json member => ?_
  obtain ⟨value, present, rfl⟩ := List.mem_map.1 member
  exact each value present

theorem fields_named_other {name : String} {names : List String} (absent : name ∉ names) (values : List Json) :
    fieldsNamed name (names.zip values) = [] := by
  induction names generalizing values with
  | nil => rfl
  | cons first rest ih =>
    rw [List.mem_cons, not_or] at absent
    cases values with
    | nil => rfl
    | cons value values =>
      rw [List.zip_cons_cons, fieldsNamed, if_neg (Ne.symm absent.1)]
      exact ih absent.2 values

theorem fields_named_member {names : List String} (distinct : names.Nodup) {values : List Json} {name : String}
    {value : Json} (member : (name, value) ∈ names.zip values) : fieldsNamed name (names.zip values) = [value] := by
  induction names generalizing values with
  | nil => cases member
  | cons first rest ih =>
    rw [List.nodup_cons] at distinct
    cases values with
    | nil => cases member
    | cons head values =>
      rw [List.zip_cons_cons, List.mem_cons] at member
      rw [List.zip_cons_cons, fieldsNamed]
      rcases member with same | member
      · cases same
        rw [if_pos rfl, fields_named_other distinct.1]
      · rw [if_neg, ih distinct.2 member]
        rintro rfl
        exact distinct.1 (List.of_mem_zip member).1

theorem components_of {names : List String} {values : List Json} {fields : List (String × Json)}
    (same : names.length = values.length)
    (each : ∀ name value, (name, value) ∈ names.zip values → fieldsNamed name fields = [value]) :
    components? names (.object fields) = some (values.map some) := by
  induction names generalizing values with
  | nil =>
    rw [List.eq_nil_of_length_eq_zero same.symm]
    rfl
  | cons name names ih =>
    cases values with
    | nil => cases same
    | cons value values =>
      have others := ih (Nat.succ.inj same) fun other found member => each other found (.tail _ member)
      rw [components?] at others ⊢
      rw [List.mapM_cons, each name value (.head _), others]
      rfl

theorem record_written (json : Json) (names : List String) (values : List Json) (distinct : names.Nodup)
    (same : names.length = values.length) (form : json = .object (names.zip values)) :
    record? names json = some (values.map some) := by
  rw [form]
  exact components_of same fun _ _ member => fields_named_member distinct member

theorem kinded_written (json : Json) (kinds : List String) (place : Place) (kind : String) (names : List String)
    (values : List Json) (known : kind ∈ kinds) (distinct : ("kind" :: names).Nodup)
    (same : names.length = values.length)
    (form : json = .object (("kind", .text kind) :: names.zip values)) :
    ∃ content, kinded? kinds place json = some (kind, content) ∧ record? names content = some (values.map some) := by
  rw [List.nodup_cons] at distinct
  refine ⟨.object (names.zip values), ?_, record_written _ names values distinct.2 same rfl⟩
  have other : ∀ field ∈ names.zip values, decide (field.1 ≠ "kind") = true := by
    intro field member
    rw [decide_eq_true_iff]
    intro named
    exact distinct.1 (named ▸ (List.of_mem_zip member).1)
  rw [form, kinded?, fieldsNamed, if_pos rfl, fields_named_other distinct.1, List.filter_cons_of_neg (by simp),
    List.filter_eq_self.2 other]
  simp only [kind?, List.contains_iff_mem.2 known, if_true]
  rfl

theorem list_written {α : Type} {encode : α → Json} {decode : Json → Option α} (values : List α)
    (each : ∀ value ∈ values, decode (encode value) = some value) :
    listOf? decode (.list (values.map encode)) = some values := by
  change (values.map encode).mapM decode = some values
  induction values with
  | nil => rfl
  | cons value values ih =>
    rw [List.map_cons, List.mapM_cons, each value (.head _), ih fun other member => each other (.tail _ member)]
    rfl

theorem optional_written {α : Type} {encode : α → Json} {decode : Json → Option α} (value : Option α)
    (each : ∀ value, encode value ≠ .null ∧ decode (encode value) = some value) :
    optional? decode (some (ofOption encode value)) = some value := by
  cases value with
  | none => rfl
  | some value =>
    obtain ⟨filled, read⟩ := each value
    rw [ofOption, optional?, read]
    · rfl
    · exact filled

theorem field_depth {name : String} {value : Json} {fields : List (String × Json)} (member : (name, value) ∈ fields) :
    value.depth < (Json.object fields).depth := by
  rw [depth]
  induction fields with
  | nil => cases member
  | cons first rest ih =>
    obtain ⟨other, content⟩ := first
    rw [fieldsDepth]
    rcases List.mem_cons.1 member with same | member
    · cases same
      omega
    · have := ih member
      omega

theorem item_depth {item : Json} {items : List Json} (member : item ∈ items) :
    item.depth < (Json.list items).depth := by
  rw [depth]
  induction items with
  | nil => cases member
  | cons first rest ih =>
    rw [itemsDepth]
    rcases List.mem_cons.1 member with rfl | member
    · omega
    · have := ih member
      omega

end PipeSql.Json
