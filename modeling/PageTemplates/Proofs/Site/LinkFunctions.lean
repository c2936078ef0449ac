import PageTemplates.Proofs.Except
import PageTemplates.Site.LinkFunctions
import PageTemplates.Site.View
import PageTemplates.Value.Plain

/-!
The functions that make links in a template, and the view that does the same for the program.
A template gets the view as its data, from which the functions take the path of the page; both
then give the same links and the same errors.
-/

namespace PageTemplates

/-- Only a floating-point number is written in another way as an argument of a link. -/
theorem Value.display_eq_plain {v : Value} (hv : ∀ x, v ≠ .number (.float x)) :
    v.display = v.plain := by
  cases v with
  | number n =>
      cases n with
      | whole n => rfl
      | float x => exact absurd rfl (hv x)
  | null | bool _ | text _ | list _ | object _ => rfl

namespace Site

open Route (LinkError)
open Template (Function FunctionMap)

/-! ## Functions that are added -/

theorem get?_addMissing (name : String) (f : Function) (funcs : FunctionMap) (other : Text) :
    (addMissing name f funcs).get? other =
      if other = name.toList then some ((funcs.get? other).getD f) else funcs.get? other := by
  unfold addMissing
  split
  · next hthere =>
    split
    · next hname =>
      obtain ⟨own, hown⟩ := Option.isSome_iff_exists.mp hthere
      rw [hname, hown, Option.getD_some]
    · rfl
  · next hmissing =>
    rw [Table.get?_insert]
    split
    · next hname =>
      rw [Table.contains, Bool.not_eq_true, Option.isSome_eq_false_iff,
        Option.isNone_iff_eq_none] at hmissing
      rw [hname, hmissing, Option.getD_none]
    · rfl

/-- A function of the site's own stays, and the three others are there. -/
theorem get?_withLinkFunctions (links : Option Route.Links) (funcs : FunctionMap) (name : Text) :
    (withLinkFunctions links funcs).get? name =
      if name = "rel".toList then some ((funcs.get? name).getD relFunction)
      else if name = "under".toList then some ((funcs.get? name).getD underFunction)
      else if name = "link".toList then some ((funcs.get? name).getD (linkFunction links))
      else funcs.get? name := by
  simp only [withLinkFunctions, get?_addMissing]
  have hunder : "under".toList ≠ "rel".toList := by decide
  have hlink : "link".toList ≠ "rel".toList ∧ "link".toList ≠ "under".toList := by decide
  by_cases hname : name = "link".toList
  · simp only [hname, hlink.1, hlink.2, if_true, if_false]
  · by_cases hother : name = "under".toList
    · simp only [hother, hunder, hlink.2.symm, if_true, if_false]
    · simp only [hname, hother, if_false]

/-! ## The view as data -/

theorem currentPath_toValue (v : View) : currentPath v.toValue = v.path := rfl

theorem relFunction_toValue (v : View) (target : Text) (more : List Text) :
    relFunction v.toValue (.text target :: more.map .text) = .ok (.text (v.rel target more)) := by
  have hmore : (more.map Value.text).map Value.display = more := by
    rw [List.map_map]
    exact List.map_id more
  simp only [relFunction, shownArguments, Except.map, currentPath_toValue, hmore]
  rfl

theorem underFunction_toValue (v : View) (path : Text) :
    underFunction v.toValue [.text path] = .ok (.bool (v.isWithin path)) := rfl

theorem linkFunction_toValue (v : View) (name : Text) {args : List Value}
    (hargs : ∀ x, .number (.float x) ∉ args) :
    linkFunction v.links v.toValue (.text name :: args) =
      ((v.linkTo name (args.map Value.plain)).mapError LinkError.message).map .text := by
  have hshown : args.map Value.display = args.map Value.plain := by
    refine List.map_congr_left fun arg harg => Value.display_eq_plain ?_
    rintro x rfl
    exact hargs x harg
  unfold linkFunction View.linkTo
  cases v.links with
  | none => rfl
  | some links =>
      have hname : (Value.text name).display = name := rfl
      simp only [shownArguments, Except.bind, hshown, hname, currentPath_toValue]
      cases links.path name (args.map Value.plain) <;> rfl

/-- What the function with a name answers when it is called with some data and arguments. -/
def call (funcs : FunctionMap) (name : String) (root : Value) (args : List Value) :
    Option (Except String Value) :=
  (funcs.get? name.toList).map fun f => f root args

theorem call_of_get? {funcs : FunctionMap} {name : String} {f : Function}
    (hf : funcs.get? name.toList = some f) (root : Value) (args : List Value) :
    call funcs name root args = some (f root args) := by
  rw [call, hf, Option.map_some]

/-- Unless a site has functions of its own under their names, the functions in a template that has
a view as its data answer as the view does. -/
theorem call_withLinkFunctions {funcs : FunctionMap} (hrel : funcs.get? "rel".toList = none)
    (hunder : funcs.get? "under".toList = none) (hlink : funcs.get? "link".toList = none)
    (v : View) :
    (∀ target more,
        call (withLinkFunctions v.links funcs) "rel" v.toValue
            (.text target :: more.map .text) =
          some (.ok (.text (v.rel target more)))) ∧
      (∀ path,
        call (withLinkFunctions v.links funcs) "under" v.toValue [.text path] =
          some (.ok (.bool (v.isWithin path)))) ∧
      ∀ name args, (∀ x, .number (.float x) ∉ args) →
        call (withLinkFunctions v.links funcs) "link" v.toValue (.text name :: args) =
          some (((v.linkTo name (args.map Value.plain)).mapError LinkError.message).map .text) := by
  have hget := get?_withLinkFunctions v.links funcs
  refine ⟨fun target more => ?_, fun path => ?_, fun name args hargs => ?_⟩
  · have hf := hget "rel".toList
    rw [if_pos rfl, hrel, Option.getD_none] at hf
    rw [call_of_get? hf, relFunction_toValue]
  · have hf := hget "under".toList
    rw [if_neg (by decide), if_pos rfl, hunder, Option.getD_none] at hf
    rw [call_of_get? hf, underFunction_toValue]
  · have hf := hget "link".toList
    rw [if_neg (by decide), if_neg (by decide), if_pos rfl, hlink, Option.getD_none] at hf
    rw [call_of_get? hf, linkFunction_toValue v name hargs]

/-- A page two directories down, with one route and one function of the site's own: a link to the
route, one to a route that there is not, a link to a path, and the way up to a directory. -/
theorem call_withLinkFunctions_event :
    let v : View := ⟨"/admin/events/".toList, .null,
      some (Route.Links.empty.named "event".toList "/event/:id/:day".toList)⟩
    let own : FunctionMap := Table.empty.insert "hello".toList fun _ _ => .ok .null
    let funcs := withLinkFunctions v.links own
    own.get? "rel".toList = none ∧ own.get? "under".toList = none ∧ own.get? "link".toList = none ∧
      (∀ x, Value.number (.float x) ∉ [.int (-12), .bool true]) ∧
      call funcs "link" v.toValue [.text "event".toList, .int (-12), .bool true] =
        some (.ok (.text "../../event/-12/true".toList)) ∧
      call funcs "link" v.toValue [.text "none".toList] = some (.error "alias none not found") ∧
      call funcs "rel" v.toValue [.text "/static".toList, .text "app.css".toList] =
        some (.ok (.text "../../static/app.css".toList)) ∧
      call funcs "under" v.toValue [.text "/admin".toList] = some (.ok (.bool true)) := by
  intro v own funcs
  have hrel : own.get? "rel".toList = none := by decide
  have hunder : own.get? "under".toList = none := by decide
  have hlink : own.get? "link".toList = none := by decide
  have hargs : ∀ x, Value.number (.float x) ∉ [.int (-12), .bool true] := by simp [Value.int]
  obtain ⟨hrels, hunders, hlinks⟩ := call_withLinkFunctions hrel hunder hlink v
  refine ⟨hrel, hunder, hlink, hargs, (hlinks _ _ hargs).trans ?_,
    (hlinks _ [] (by simp)).trans ?_, (hrels "/static".toList ["app.css".toList]).trans ?_,
    (hunders "/admin".toList).trans ?_⟩
  · have hpath : v.linkTo "event".toList ([.int (-12), .bool true].map Value.plain) =
        .ok "../../event/-12/true".toList := by decide +kernel
    rw [hpath]
    rfl
  · have hnone : v.linkTo "none".toList [] = .error (.aliasNotFound "none".toList) := by
      decide +kernel
    rw [List.map_nil, hnone]
    rfl
  · have hrel : v.rel "/static".toList ["app.css".toList] = "../../static/app.css".toList := by
      decide +kernel
    rw [hrel]
  · have hunder : v.isWithin "/admin".toList = true := by decide +kernel
    rw [hunder]

end Site
end PageTemplates
