import Mathlib.Data.List.Induction
import PageTemplates.Proofs.Template.Tokens
import PageTemplates.Template.Namespace

/-!
What a namespace keeps of its sources.  For every name it keeps the last definition in the
last source that has one, and as its main template the last body that is not blank.  So
sources that do not meet can change places, a source that comes twice in a row counts
once, and a source that cannot be read or has nothing in it does not count at all.
-/

namespace PageTemplates.Template

namespace Parsed

/-- Whether the steps of a source write nothing but blanks. -/
def isBlank (p : Parsed) : Bool :=
  p.body.all Node.isBlank

/-- The names that a source defines. -/
def names (p : Parsed) : List Text :=
  p.definitions.map (·.1)

/-- The definition of a name that ends last. -/
def last? (p : Parsed) (name : Text) : Option (List Node) :=
  p.definitions.reverse.lookup name

/-- Whether two sources define no name in common, and at most one of them has steps that count. -/
def Apart (p q : Parsed) : Prop :=
  (∀ name ∈ p.names, name ∉ q.names) ∧ (p.isBlank = true ∨ q.isBlank = true)

theorem last?_of_not_mem {p : Parsed} {name : Text} (hname : name ∉ p.names) :
    p.last? name = none := by
  rw [← Option.not_isSome_iff_eq_none, Option.isSome_iff_exists, last?, ← mem_map_fst_iff,
    List.map_reverse, List.mem_reverse]
  exact hname

end Parsed

namespace Namespace

/-! ## One source that has been read -/

theorem get?_add (ns : Namespace) (p : Parsed) (name : Text) :
    (ns.add p).templates.get? name = (p.last? name).or (ns.templates.get? name) :=
  ns.templates.get?_insertAll p.definitions name

theorem main_add (ns : Namespace) (p : Parsed) :
    (ns.add p).main = if p.isBlank then ns.main else some p.body := rfl

theorem funcs_add (ns : Namespace) (p : Parsed) : (ns.add p).funcs = ns.funcs := rfl

/-- A namespace is known by its functions, its main template and what it answers to names. -/
theorem eq_of_get? {ns other : Namespace} (hfuncs : ns.funcs = other.funcs)
    (hmain : ns.main = other.main)
    (htemplates : ∀ name, ns.templates.get? name = other.templates.get? name) : ns = other := by
  obtain ⟨funcs, main, templates⟩ := ns
  obtain ⟨others, otherMain, otherTemplates⟩ := other
  obtain rfl : funcs = others := hfuncs
  obtain rfl : main = otherMain := hmain
  obtain rfl : templates = otherTemplates := Table.ext_get? htemplates
  rfl

theorem add_comm (ns : Namespace) {p q : Parsed} (hapart : p.Apart q) :
    (ns.add p).add q = (ns.add q).add p := by
  obtain ⟨hnames, hblank⟩ := hapart
  refine eq_of_get? rfl ?_ ?_
  · simp only [main_add]
    rcases hblank with hblank | hblank <;> simp [hblank]
  · intro name
    simp only [get?_add]
    by_cases hname : name ∈ p.names
    · simp [Parsed.last?_of_not_mem (hnames name hname)]
    · simp [Parsed.last?_of_not_mem hname]

theorem add_add_self (ns : Namespace) (p : Parsed) : (ns.add p).add p = ns.add p := by
  refine eq_of_get? rfl ?_ ?_
  · simp only [main_add]
    cases p.isBlank <;> rfl
  · intro name
    simp only [get?_add]
    cases p.last? name <;> rfl

theorem add_of_blank (ns : Namespace) {p : Parsed} (hblank : p.isBlank = true)
    (hnone : p.definitions = []) : ns.add p = ns := by
  refine eq_of_get? rfl ?_ ?_
  · rw [main_add, if_pos hblank]
  · intro name
    rw [get?_add, Parsed.last?, hnone]
    rfl

/-! ## Several sources -/

/-- The namespace after a source is offered to it; a source that cannot be read changes nothing. -/
def offer (ns : Namespace) (source : Text) : Namespace :=
  match ns.parse source with
  | .ok next => next
  | .error _ => ns

/-- The namespace that some sources make, each offered to what the ones before it have made. -/
def built (funcs : FunctionMap) (sources : List Text) : Namespace :=
  sources.foldl offer (empty funcs)

/-- What is read of some sources, without those that cannot be read. -/
def readAll (funcs : FunctionMap) (sources : List Text) : List Parsed :=
  sources.filterMap fun source => (Template.parse funcs.knows source).toOption

variable {source : Text}

theorem offer_of_ok (ns : Namespace) {p : Parsed}
    (hp : Template.parse ns.funcs.knows source = .ok p) :
    ns.offer source = ns.add p := by
  rw [offer, parse, hp]
  rfl

theorem offer_of_error (ns : Namespace) {e : ParseError}
    (he : Template.parse ns.funcs.knows source = .error e) :
    ns.offer source = ns := by
  rw [offer, parse, he]
  rfl

theorem funcs_offer (ns : Namespace) (source : Text) : (ns.offer source).funcs = ns.funcs := by
  cases hp : Template.parse ns.funcs.knows source with
  | error e => rw [ns.offer_of_error hp]
  | ok p => rw [ns.offer_of_ok hp, funcs_add]

theorem foldl_offer (sources : List Text) (ns : Namespace) :
    sources.foldl offer ns = (readAll ns.funcs sources).foldl add ns := by
  induction sources generalizing ns with
  | nil => rfl
  | cons source rest ih =>
      rw [List.foldl_cons, ih, funcs_offer, readAll, readAll, List.filterMap_cons]
      cases hp : Template.parse ns.funcs.knows source with
      | error e => rw [ns.offer_of_error hp]; rfl
      | ok p => rw [ns.offer_of_ok hp]; rfl

theorem built_eq (funcs : FunctionMap) (sources : List Text) :
    built funcs sources = (readAll funcs sources).foldl add (empty funcs) :=
  foldl_offer sources (empty funcs)

theorem funcs_foldl_add (parsed : List Parsed) (ns : Namespace) :
    (parsed.foldl add ns).funcs = ns.funcs := by
  induction parsed generalizing ns with
  | nil => rfl
  | cons p rest ih => exact ih (ns.add p)

theorem get?_foldl_add (parsed : List Parsed) (ns : Namespace) (name : Text) :
    (parsed.foldl add ns).templates.get? name =
      (parsed.reverse.findSome? (·.last? name)).or (ns.templates.get? name) := by
  induction parsed using List.reverseRecOn with
  | nil => rfl
  | append_singleton parsed p ih =>
      rw [List.foldl_append, List.foldl_cons, List.foldl_nil, get?_add, ih, List.reverse_concat,
        List.findSome?_cons]
      cases p.last? name <;> rfl

theorem main_foldl_add (parsed : List Parsed) (ns : Namespace) :
    (parsed.foldl add ns).main =
      ((parsed.reverse.find? fun p => !p.isBlank).map Parsed.body).or ns.main := by
  induction parsed using List.reverseRecOn with
  | nil => rfl
  | append_singleton parsed p ih =>
      rw [List.foldl_append, List.foldl_cons, List.foldl_nil, main_add, ih, List.reverse_concat,
        List.find?_cons]
      cases p.isBlank <;> rfl

/-- Sources that cannot be read leave nothing behind. -/
theorem built_filter (funcs : FunctionMap) (sources : List Text) :
    built funcs (sources.filter fun source => (Template.parse funcs.knows source).isOk) =
      built funcs sources := by
  have hread : readAll funcs
      (sources.filter fun source => (Template.parse funcs.knows source).isOk) =
        readAll funcs sources := by
    rw [readAll, readAll, List.filterMap_filter]
    congr 1
    funext source
    cases Template.parse funcs.knows source <;> rfl
  rw [built_eq, built_eq, hread]

theorem offer_comm (ns : Namespace) {source next : Text}
    (hapart : ∀ p q, Template.parse ns.funcs.knows source = .ok p →
      Template.parse ns.funcs.knows next = .ok q → p.Apart q) :
    (ns.offer source).offer next = (ns.offer next).offer source := by
  cases hp : Template.parse ns.funcs.knows source with
  | error e =>
      rw [ns.offer_of_error hp, (ns.offer next).offer_of_error (by rwa [funcs_offer])]
  | ok p =>
      rw [ns.offer_of_ok hp, (ns.offer next).offer_of_ok (by rwa [funcs_offer])]
      cases hq : Template.parse ns.funcs.knows next with
      | error e => rw [ns.offer_of_error hq, (ns.add p).offer_of_error hq]
      | ok q => rw [ns.offer_of_ok hq, (ns.add p).offer_of_ok hq, ns.add_comm (hapart p q hp hq)]

theorem offer_offer_self (ns : Namespace) (source : Text) :
    (ns.offer source).offer source = ns.offer source := by
  cases hp : Template.parse ns.funcs.knows source with
  | error e => rw [ns.offer_of_error hp, ns.offer_of_error hp]
  | ok p => rw [ns.offer_of_ok hp, (ns.add p).offer_of_ok hp, ns.add_add_self]

/-! ## Blank sources -/

/-- Whether a source can be read and has neither steps that count nor definitions. -/
def Blank (funcs : FunctionMap) (source : Text) : Prop :=
  ∃ p, Template.parse funcs.knows source = .ok p ∧ p.isBlank = true ∧ p.definitions = []

theorem offer_of_blank (ns : Namespace) (hsource : Blank ns.funcs source) : ns.offer source = ns := by
  obtain ⟨p, hp, hblank, hnone⟩ := hsource
  rw [ns.offer_of_ok hp, ns.add_of_blank hblank hnone]

/-- No action begins in a text of blanks. -/
theorem tokenize_of_isBlank (hsource : source.all Text.isBlank = true) :
    tokenize source = .ok (textToken source) := by
  have hcut : Text.cut openMark source = none := by
    cases hcut : Text.cut openMark source with
    | none => rfl
    | some parts =>
        obtain ⟨text, inner⟩ := parts
        have hmem : '\x7b' ∈ source := by
          rw [Text.eq_of_cut hcut]
          simp [openMark]
        exact absurd (List.all_eq_true.mp hsource _ hmem) (by decide)
  rw [tokenize, cutSource_of_cut_none hcut]
  rfl

/-- Such a text is read as itself, or as nothing when it is empty. -/
theorem blank_of_isBlank (funcs : FunctionMap) (hsource : source.all Text.isBlank = true) :
    Blank funcs source := by
  have htokens := tokenize_of_isBlank hsource
  by_cases hempty : source = []
  · refine ⟨⟨[], []⟩, ?_, rfl, rfl⟩
    rw [Template.parse, htokens, textToken, if_pos hempty]
    rfl
  · refine ⟨⟨[.text source], []⟩, ?_, ?_, rfl⟩
    · rw [Template.parse, htokens, textToken, if_neg hempty]
      rfl
    · simp [Parsed.isBlank, Node.isBlank, hsource]

/-! ## The order of sources -/

/-- Later sources see of the earlier ones only the namespace that they have made. -/
theorem built_append_cons (funcs : FunctionMap) (before : List Text) (source : Text)
    (after : List Text) :
    built funcs (before ++ source :: after) =
      after.foldl offer ((built funcs before).offer source) := by
  rw [built, List.foldl_append, List.foldl_cons]
  rfl

theorem funcs_built (funcs : FunctionMap) (sources : List Text) :
    (built funcs sources).funcs = funcs := by
  rw [built_eq, funcs_foldl_add]
  rfl

/-- What a namespace keeps of a series of sources, and which of them could be exchanged,
repeated or left out without a change. -/
theorem built_overrides (funcs : FunctionMap) (sources : List Text) :
    (∀ name, (built funcs sources).templates.get? name =
        (readAll funcs sources).reverse.findSome? (·.last? name)) ∧
      (built funcs sources).main =
        ((readAll funcs sources).reverse.find? fun p => !p.isBlank).map Parsed.body ∧
      (built funcs sources).funcs = funcs ∧
      built funcs (sources.filter fun source => (Template.parse funcs.knows source).isOk) =
        built funcs sources ∧
      ∀ before source after,
        (∀ next, (∀ p q, Template.parse funcs.knows source = .ok p →
            Template.parse funcs.knows next = .ok q → p.Apart q) →
          built funcs (before ++ source :: next :: after) =
            built funcs (before ++ next :: source :: after)) ∧
        built funcs (before ++ source :: source :: after) =
          built funcs (before ++ source :: after) ∧
        (source.all Text.isBlank = true → Blank funcs source) ∧
        (Blank funcs source →
          built funcs (before ++ source :: after) = built funcs (before ++ after)) := by
  refine ⟨fun name => ?_, ?_, funcs_built funcs sources, built_filter funcs sources,
    fun before source after => ⟨fun next hapart => ?_, ?_, blank_of_isBlank funcs,
      fun hblank => ?_⟩⟩
  · rw [built_eq, get?_foldl_add, empty, Table.get?_empty, Option.or_none]
  · rw [built_eq, main_foldl_add, empty, Option.or_none]
  · rw [built_append_cons, built_append_cons, List.foldl_cons, List.foldl_cons,
      (built funcs before).offer_comm]
    rwa [funcs_built]
  · rw [built_append_cons, built_append_cons, List.foldl_cons, offer_offer_self]
  · rw [← funcs_built funcs before] at hblank
    rw [built_append_cons, (built funcs before).offer_of_blank hblank, built, built, List.foldl_append]

/-- A page that defines one template, a source that defines another and has nothing else, and a
blank line: the two sources can change places, and the line can be left out. -/
theorem built_overrides_parts :
    let page := "\x7b\x7bdefine \"side\"\x7d\x7da\x7b\x7bend\x7d\x7dbody".toList
    let part := "\x7b\x7bdefine \"top\"\x7d\x7db\x7b\x7bend\x7d\x7d\n".toList
    let line := " \n".toList
    let summary := fun source => (Template.parse (FunctionMap.knows Table.empty) source).toOption.map
      fun p => (p.names, p.isBlank)
    summary page = some (["side".toList], false) ∧ summary part = some (["top".toList], true) ∧
      built Table.empty [page, part] = built Table.empty [part, page] ∧
      line.all Text.isBlank = true ∧
      built Table.empty [page, line] = built Table.empty [page] := by
  intro page part line summary
  have hpage : summary page = some (["side".toList], false) := by decide +kernel
  have hpart : summary part = some (["top".toList], true) := by decide +kernel
  have hline : line.all Text.isBlank = true := by decide
  have hrules := (built_overrides Table.empty []).2.2.2.2
  refine ⟨hpage, hpart, (hrules [] page []).1 part fun p q hp hq => ?_, hline, ?_⟩
  · simp only [summary, hp, hq, Except.toOption, Option.map_some, Option.some.injEq,
      Prod.mk.injEq] at hpage hpart
    refine ⟨?_, .inr hpart.2⟩
    rw [hpage.1, hpart.1]
    decide
  · obtain ⟨-, -, hblank, hleft⟩ := hrules [page] line []
    exact hleft (hblank hline)

end Namespace
end PageTemplates.Template
