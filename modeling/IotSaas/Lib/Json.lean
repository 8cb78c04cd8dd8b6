import Mathlib.Data.List.Basic

/-!
# `Lib/Json.lean` — JSON values

Documents over a number type `F`. An object is its list of members in textual order, which
`Json.Same` looks past.
-/

set_option autoImplicit false

namespace IotSaas.Lib

inductive Json (F : Type*) where
  | null
  | bool (b : Bool)
  | num (n : F)
  | str (s : String)
  | arr (items : List (Json F))
  | obj (members : List (String × Json F))

universe u

mutual

/-- The same document but for the order of members, and for its numbers, which are related by
`R`. -/
inductive Json.Same {F : Type u} (R : F → F → Prop) : Json F → Json F → Prop where
  | null : Json.Same R .null .null
  | bool (b : Bool) : Json.Same R (.bool b) (.bool b)
  | num {m n : F} (h : R m n) : Json.Same R (.num m) (.num n)
  | str (s : String) : Json.Same R (.str s) (.str s)
  | arr {items items' : List (Json F)} (h : Json.SameItems R items items') :
      Json.Same R (.arr items) (.arr items')
  | obj {members between members' : List (String × Json F)}
      (h : Json.SameMembers R members between) (order : between.Perm members') :
      Json.Same R (.obj members) (.obj members')

inductive Json.SameItems {F : Type u} (R : F → F → Prop) :
    List (Json F) → List (Json F) → Prop where
  | nil : Json.SameItems R [] []
  | cons {item item' : Json F} {rest rest' : List (Json F)} (head : Json.Same R item item')
      (tail : Json.SameItems R rest rest') : Json.SameItems R (item :: rest) (item' :: rest')

inductive Json.SameMembers {F : Type u} (R : F → F → Prop) :
    List (String × Json F) → List (String × Json F) → Prop where
  | nil : Json.SameMembers R [] []
  | cons (key : String) {value value' : Json F} {rest rest' : List (String × Json F)}
      (head : Json.Same R value value') (tail : Json.SameMembers R rest rest') :
      Json.SameMembers R ((key, value) :: rest) ((key, value') :: rest')

end

end IotSaas.Lib
