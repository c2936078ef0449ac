import Mathlib.Data.List.DropRight
import PageTemplates.Path.Basic
import PageTemplates.Proofs.Text.Pieces

/-!
What the normal form of a path is made of.  The names below the root are found
again in the path that they spell; a relative way is some steps up followed by
names, and going it from a rooted directory takes back that many names and adds
the others.
-/

namespace PageTemplates.Path

/-- A name that is neither empty nor one of the two dots. -/
def Ordinary (name : Text) : Prop :=
  name ≠ [] ∧ name ≠ here ∧ name ≠ up

instance : DecidablePred Ordinary :=
  fun _ => inferInstanceAs (Decidable (_ ∧ _))

/-! ## One name -/

theorem enter_ordinary {name : Text} (rooted : Bool) (reached : List Text)
    (hname : Ordinary name) : enter rooted reached name = name :: reached := by
  obtain ⟨hempty, hhere, hup⟩ := hname
  simp [enter, hempty, hhere, hup]

theorem enter_skipped {name : Text} (rooted : Bool) (reached : List Text)
    (hname : name = [] ∨ name = here) : enter rooted reached name = reached := by
  unfold enter
  rw [if_pos hname]

theorem enter_up_nil (rooted : Bool) :
    enter rooted [] up = if rooted then [] else [up] := rfl

theorem enter_up_cons (rooted : Bool) (last : Text) (earlier : List Text) :
    enter rooted (last :: earlier) up =
      if last = up then up :: last :: earlier else earlier := rfl

/-- Below the root a double dot takes back one name, if there is one. -/
theorem enter_up_rooted {reached : List Text}
    (hreached : ∀ name ∈ reached, Ordinary name) :
    enter true reached up = reached.tail := by
  cases reached with
  | nil => rfl
  | cons last earlier =>
      have hlast : last ≠ up := (hreached last List.mem_cons_self).2.2
      rw [enter_up_cons, if_neg hlast, List.tail_cons]

/-- The three things that a name can be. -/
theorem skipped_or_up_or_ordinary (name : Text) :
    (name = [] ∨ name = here) ∨ name = up ∨ Ordinary name := by
  unfold Ordinary
  tauto

theorem mem_enter {rooted : Bool} {reached : List Text} {name found : Text}
    (hfound : found ∈ enter rooted reached name) : found ∈ reached ∨ found = name := by
  rcases skipped_or_up_or_ordinary name with hskip | rfl | hname
  · rw [enter_skipped rooted reached hskip] at hfound
    exact Or.inl hfound
  · cases reached with
    | nil =>
        rw [enter_up_nil] at hfound
        cases rooted <;> simp_all
    | cons last earlier =>
        rw [enter_up_cons] at hfound
        by_cases hlast : last = up
        · rw [if_pos hlast, List.mem_cons] at hfound
          exact hfound.symm
        · rw [if_neg hlast] at hfound
          exact Or.inl (List.mem_cons_of_mem last hfound)
  · rw [enter_ordinary rooted reached hname, List.mem_cons] at hfound
    exact hfound.symm

theorem ordinary_enter_rooted {reached : List Text}
    (hreached : ∀ name ∈ reached, Ordinary name) (name : Text) :
    ∀ found ∈ enter true reached name, Ordinary found := by
  rcases skipped_or_up_or_ordinary name with hskip | rfl | hname
  · rw [enter_skipped true reached hskip]
    exact hreached
  · rw [enter_up_rooted hreached]
    exact fun found hfound => hreached found (List.mem_of_mem_tail hfound)
  · rw [enter_ordinary true reached hname]
    exact List.forall_mem_cons.mpr ⟨hname, hreached⟩

/-! ## All names of a path -/

theorem mem_foldl_enter {rooted : Bool} {reached names : List Text} {found : Text}
    (hfound : found ∈ names.foldl (enter rooted) reached) :
    found ∈ reached ∨ found ∈ names := by
  induction names generalizing reached with
  | nil => exact Or.inl hfound
  | cons name rest ih =>
      rcases ih hfound with hentered | hrest
      · rcases mem_enter hentered with hreached | rfl
        · exact Or.inl hreached
        · exact Or.inr List.mem_cons_self
      · exact Or.inr (List.mem_cons_of_mem name hrest)

/-- Resolving makes up no names. -/
theorem mem_of_mem_resolve {rooted : Bool} {names : List Text} {found : Text}
    (hfound : found ∈ resolve rooted names) : found ∈ names := by
  rw [resolve, List.mem_reverse] at hfound
  rcases mem_foldl_enter hfound with hnil | hnames
  · exact absurd hnil List.not_mem_nil
  · exact hnames

theorem ordinary_foldl_enter_rooted {reached : List Text}
    (hreached : ∀ name ∈ reached, Ordinary name) (names : List Text) :
    ∀ found ∈ names.foldl (enter true) reached, Ordinary found := by
  induction names generalizing reached with
  | nil => exact hreached
  | cons name rest ih => exact ih (ordinary_enter_rooted hreached name)

theorem ordinary_of_mem_resolve_rooted (names : List Text) :
    ∀ found ∈ resolve true names, Ordinary found := by
  intro found hfound
  rw [resolve, List.mem_reverse] at hfound
  exact ordinary_foldl_enter_rooted (List.forall_mem_nil _) names found hfound

theorem foldl_enter_of_up_not_mem {names : List Text} (rooted : Bool) (reached : List Text)
    (hup : up ∉ names) :
    names.foldl (enter rooted) reached =
      (names.filter fun name => decide (Ordinary name)).reverse ++ reached := by
  induction names generalizing reached with
  | nil => rfl
  | cons name rest ih =>
      obtain ⟨hname, hrest⟩ := List.ne_and_not_mem_of_not_mem_cons hup
      rcases skipped_or_up_or_ordinary name with hskip | rfl | hordinary
      · have hnot : ¬ Ordinary name := fun h => hskip.elim h.1 h.2.1
        rw [List.foldl_cons, enter_skipped rooted reached hskip, ih reached hrest,
          List.filter_cons_of_neg (by simp [hnot])]
      · exact absurd rfl hname
      · rw [List.foldl_cons, enter_ordinary rooted reached hordinary, ih _ hrest,
          List.filter_cons_of_pos (by simp [hordinary]), List.reverse_cons, List.append_assoc,
          List.singleton_append]

/-- Names without a double dot are kept, but for those that lead nowhere. -/
theorem resolve_of_up_not_mem {names : List Text} (rooted : Bool) (hup : up ∉ names) :
    resolve rooted names = names.filter fun name => decide (Ordinary name) := by
  rw [resolve, foldl_enter_of_up_not_mem rooted [] hup, List.append_nil, List.reverse_reverse]

theorem foldl_enter_of_ordinary {names : List Text} (rooted : Bool) (reached : List Text)
    (hnames : ∀ name ∈ names, Ordinary name) :
    names.foldl (enter rooted) reached = names.reverse ++ reached := by
  have hup : up ∉ names := fun hup => (hnames up hup).2.2 rfl
  have hall : names.filter (fun name => decide (Ordinary name)) = names :=
    List.filter_eq_self.mpr fun name hname => decide_eq_true (hnames name hname)
  rw [foldl_enter_of_up_not_mem rooted reached hup, hall]

/-- Ordinary names stay as they are. -/
theorem resolve_of_ordinary {names : List Text} (rooted : Bool)
    (hnames : ∀ name ∈ names, Ordinary name) : resolve rooted names = names := by
  rw [resolve, foldl_enter_of_ordinary rooted [] hnames, List.append_nil, List.reverse_reverse]

theorem foldl_enter_filter (rooted : Bool) (reached names : List Text) :
    (names.filter (· ≠ [])).foldl (enter rooted) reached =
      names.foldl (enter rooted) reached := by
  induction names generalizing reached with
  | nil => rfl
  | cons name rest ih =>
      by_cases hname : name = []
      · rw [List.filter_cons_of_neg (by simp [hname]), ih, List.foldl_cons,
          enter_skipped rooted reached (Or.inl hname)]
      · rw [List.filter_cons_of_pos (by simp [hname]), List.foldl_cons, ih, List.foldl_cons]

theorem length_enter_rooted_le {reached : List Text}
    (hreached : ∀ name ∈ reached, Ordinary name) (name : Text) :
    (enter true reached name).length ≤ reached.length + 1 ∧
      (¬ Ordinary name → (enter true reached name).length ≤ reached.length) := by
  rcases skipped_or_up_or_ordinary name with hskip | rfl | hname
  · simp [enter_skipped true reached hskip]
  · rw [enter_up_rooted hreached, List.length_tail]
    omega
  · simp [enter_ordinary true reached hname, hname]

theorem length_foldl_enter_rooted_le {reached : List Text}
    (hreached : ∀ name ∈ reached, Ordinary name) (names : List Text) :
    (names.foldl (enter true) reached).length ≤
      reached.length + names.countP (fun name => decide (Ordinary name)) := by
  induction names generalizing reached with
  | nil => simp
  | cons name rest ih =>
      have hrest := ih (ordinary_enter_rooted hreached name)
      obtain ⟨hany, hextra⟩ := length_enter_rooted_le hreached name
      rw [List.foldl_cons, List.countP_cons]
      by_cases hname : Ordinary name
      · simp only [hname, decide_true, if_true]
        omega
      · have hkept := hextra hname
        simp only [hname, decide_false, Bool.false_eq_true, if_false]
        omega

theorem length_resolve_rooted_le (names : List Text) :
    (resolve true names).length ≤ names.length := by
  have hbound := length_foldl_enter_rooted_le (List.forall_mem_nil Ordinary) names
  rw [List.length_nil, Nat.zero_add] at hbound
  rw [resolve, List.length_reverse]
  exact hbound.trans List.countP_le_length

/-- A name that is not ordinary is missing in the end, so the names get fewer. -/
theorem length_resolve_rooted_lt {names : List Text} {name : Text}
    (hmem : name ∈ names) (hname : ¬ Ordinary name) :
    (resolve true names).length < names.length := by
  have hbound := length_foldl_enter_rooted_le (List.forall_mem_nil Ordinary) names
  have hcount : names.countP (fun name => decide (Ordinary name)) < names.length := by
    apply Nat.lt_of_le_of_ne List.countP_le_length
    intro hall
    rw [List.countP_eq_length] at hall
    exact hname (of_decide_eq_true (hall name hmem))
  rw [resolve, List.length_reverse]
  simp only [List.length_nil, Nat.zero_add] at hbound
  omega

/-! ## Relative ways -/

/-- How many steps up a relative way begins with, once it is resolved. -/
def ascent (way : List Text) : Nat :=
  ((resolve false way).takeWhile (· = up)).length

/-- The names that a relative way adds after its steps up. -/
def descent (way : List Text) : List Text :=
  (resolve false way).dropWhile (· = up)

/-- One way, gone from nowhere and from any rooted directory: the names it adds
are the same, and its steps up take back names of the directory. -/
theorem exists_way (way : List Text) :
    ∃ (steps : Nat) (down : List Text), (∀ name ∈ down, Ordinary name) ∧
      way.foldl (enter false) [] = down ++ List.replicate steps up ∧
      ∀ reached : List Text, (∀ name ∈ reached, Ordinary name) →
        way.foldl (enter true) reached = down ++ reached.drop steps := by
  induction way using List.reverseRecOn with
  | nil => exact ⟨0, [], by simp, rfl, fun reached _ => by simp⟩
  | append_singleton way name ih =>
      obtain ⟨steps, down, hdown, hfree, hrooted⟩ := ih
      simp only [List.foldl_append, List.foldl_cons, List.foldl_nil, hfree]
      rcases skipped_or_up_or_ordinary name with hskip | rfl | hname
      · refine ⟨steps, down, hdown, enter_skipped _ _ hskip, ?_⟩
        intro reached hreached
        rw [hrooted reached hreached, enter_skipped _ _ hskip]
      · cases down with
        | nil =>
            -- Nothing is left of the way to take back, so it goes one more step up.
            refine ⟨steps + 1, [], by simp, ?_, ?_⟩
            · cases steps with
              | zero => rfl
              | succ n => rfl
            · intro reached hreached
              have hdrop : ∀ name ∈ reached.drop steps, Ordinary name :=
                fun name hname => hreached name (List.mem_of_mem_drop hname)
              rw [hrooted reached hreached, List.nil_append, enter_up_rooted hdrop,
                List.tail_drop]
              rfl
        | cons last earlier =>
            obtain ⟨hlast, hearlier⟩ := List.forall_mem_cons.mp hdown
            refine ⟨steps, earlier, hearlier, ?_, ?_⟩
            · rw [List.cons_append, enter_up_cons, if_neg hlast.2.2]
            · intro reached hreached
              rw [hrooted reached hreached, List.cons_append, enter_up_cons,
                if_neg hlast.2.2]
      · refine ⟨steps, name :: down, List.forall_mem_cons.mpr ⟨hname, hdown⟩, ?_, ?_⟩
        · rw [enter_ordinary _ _ hname, List.cons_append]
        · intro reached hreached
          rw [hrooted reached hreached, enter_ordinary _ _ hname, List.cons_append]

theorem ascent_descent_of_resolve {way down : List Text} {steps : Nat}
    (hdown : ∀ name ∈ down, Ordinary name)
    (hway : resolve false way = List.replicate steps up ++ down) :
    ascent way = steps ∧ descent way = down := by
  have hup : ∀ name ∈ List.replicate steps up, decide (name = up) = true := by
    intro name hname
    exact decide_eq_true (List.eq_of_mem_replicate hname)
  have hfirst : ∀ name rest, down = name :: rest → name ≠ up := by
    rintro name rest rfl
    exact (hdown name List.mem_cons_self).2.2
  rw [ascent, descent, hway, List.takeWhile_append_of_pos hup,
    List.dropWhile_append_of_pos hup]
  cases down with
  | nil => simp
  | cons name rest => simp [hfirst name rest rfl]

/-- A relative way resolved: its steps up and then the names that it adds, and what
these do to a rooted directory. -/
theorem resolve_way (way : List Text) :
    resolve false way = List.replicate (ascent way) up ++ descent way ∧
      (∀ name ∈ descent way, Ordinary name) ∧
      ∀ reached : List Text, (∀ name ∈ reached, Ordinary name) →
        way.foldl (enter true) reached =
          (descent way).reverse ++ reached.drop (ascent way) := by
  obtain ⟨steps, down, hdown, hfree, hrooted⟩ := exists_way way
  have hway : resolve false way = List.replicate steps up ++ down.reverse := by
    rw [resolve, hfree, List.reverse_append, List.reverse_replicate]
  have hordinary : ∀ name ∈ down.reverse, Ordinary name :=
    fun name hname => hdown name (List.mem_reverse.mp hname)
  obtain ⟨hascent, hdescent⟩ := ascent_descent_of_resolve hordinary hway
  rw [hascent, hdescent, List.reverse_reverse]
  exact ⟨hway, hordinary, hrooted⟩

/-- Going a way from a rooted directory. -/
theorem foldl_enter_rooted {reached : List Text}
    (hreached : ∀ name ∈ reached, Ordinary name) (way : List Text) :
    way.foldl (enter true) reached = (descent way).reverse ++ reached.drop (ascent way) :=
  (resolve_way way).2.2 reached hreached

/-- Steps up and then names are a way from which nothing can be left out. -/
theorem resolve_replicate_up_append (n : Nat) {down : List Text}
    (hdown : ∀ name ∈ down, Ordinary name) :
    resolve false (List.replicate n up ++ down) = List.replicate n up ++ down := by
  have hup : (List.replicate n up).foldl (enter false) [] = List.replicate n up := by
    induction n with
    | zero => rfl
    | succ n ih =>
        rw [List.replicate_succ', List.foldl_append, ih, ← List.replicate_succ',
          List.replicate_succ]
        cases n <;> rfl
  rw [resolve, List.foldl_append, hup, foldl_enter_of_ordinary false _ hdown]
  simp

theorem ne_nil_of_mem_resolve {rooted : Bool} {way : List Text} {name : Text}
    (hname : name ∈ resolve rooted way) : name ≠ [] := by
  cases rooted with
  | true => exact (ordinary_of_mem_resolve_rooted way name hname).1
  | false =>
      obtain ⟨hway, hdown, -⟩ := resolve_way way
      rw [hway, List.mem_append] at hname
      rcases hname with hup | hdescent
      · rw [List.eq_of_mem_replicate hup]
        exact List.cons_ne_nil _ _
      · exact (hdown name hdescent).1

/-- The names of a directory followed by a way: as many as the way goes up are
taken back, then its own come. -/
theorem resolve_rooted_append (base way : List Text) :
    resolve true (base ++ way) =
      (resolve true base).rdrop (ascent way) ++ descent way := by
  have hreached := ordinary_foldl_enter_rooted (List.forall_mem_nil Ordinary) base
  rw [resolve, List.foldl_append, foldl_enter_rooted hreached, List.reverse_append,
    List.reverse_reverse, List.rdrop_eq_reverse_drop_reverse, resolve,
    List.reverse_reverse]

/-- A way without double dots never goes up. -/
theorem ascent_eq_zero {way : List Text} (hway : up ∉ way) : ascent way = 0 := by
  rw [ascent, List.length_eq_zero_iff]
  cases hresolve : resolve false way with
  | nil => rfl
  | cons name rest =>
      have hname : name ≠ up := by
        rintro rfl
        have hmem : up ∈ resolve false way := by
          rw [hresolve]
          exact List.mem_cons_self
        exact hway (mem_of_mem_resolve hmem)
      simp [hname]

/-! ## Rooted paths -/

/-- The non-empty names between the slashes of a path. -/
def steps (path : Text) : List Text :=
  (Text.pieces '/' path).filter (· ≠ [])

theorem steps_append_slash (path rest : Text) :
    steps (path ++ '/' :: rest) = steps path ++ steps rest := by
  rw [steps, Text.pieces_append_cons, List.filter_append, steps, steps]

theorem steps_joined {parts : List Text} (hfree : ∀ part ∈ parts, '/' ∉ part) :
    steps (Text.joined ['/'] parts) = parts.filter (· ≠ []) := by
  cases parts with
  | nil => rfl
  | cons part rest => rw [steps, Text.pieces_joined (List.cons_ne_nil part rest) hfree]

theorem steps_joined_of_ne_nil {parts : List Text} (hne : ∀ part ∈ parts, part ≠ [])
    (hfree : ∀ part ∈ parts, '/' ∉ part) : steps (Text.joined ['/'] parts) = parts := by
  rw [steps_joined hfree, List.filter_eq_self]
  exact fun part hpart => decide_eq_true (hne part hpart)

theorem steps_rooted {parts : List Text} (hfree : ∀ part ∈ parts, '/' ∉ part) :
    steps ('/' :: Text.joined ['/'] parts) = parts.filter (· ≠ []) := by
  change steps ([] ++ '/' :: Text.joined ['/'] parts) = _
  rw [steps_append_slash, steps_joined hfree]
  rfl

theorem names_eq_resolve_steps (path : Text) :
    names path = resolve (isRooted path) (steps path) := by
  rw [names, resolve, resolve, steps, foldl_enter_filter]

theorem names_rooted {parts : List Text} (hfree : ∀ part ∈ parts, '/' ∉ part) :
    names ('/' :: Text.joined ['/'] parts) = resolve true parts := by
  have hskip : ∀ names : List Text, resolve true ([] :: names) = resolve true names :=
    fun _ => rfl
  have hpieces : Text.pieces '/' ('/' :: Text.joined ['/'] parts) =
      [] :: Text.pieces '/' (Text.joined ['/'] parts) := rfl
  rw [names, hpieces]
  change resolve true _ = _
  rw [hskip]
  cases parts with
  | nil => rfl
  | cons part rest => rw [Text.pieces_joined (List.cons_ne_nil part rest) hfree]

theorem normalize_rooted {parts : List Text} (hfree : ∀ part ∈ parts, '/' ∉ part) :
    normalize ('/' :: Text.joined ['/'] parts) = ofNames true (resolve true parts) := by
  rw [normalize, names_rooted hfree]
  rfl

/-- The names below the root, as they stand in a normal path. -/
structure BelowRoot (names : List Text) : Prop where
  ordinary : ∀ name ∈ names, Ordinary name
  free : ∀ name ∈ names, '/' ∉ name

theorem BelowRoot.left {names rest : List Text} (h : BelowRoot (names ++ rest)) :
    BelowRoot names :=
  ⟨fun name hname => h.ordinary name (List.mem_append_left rest hname),
    fun name hname => h.free name (List.mem_append_left rest hname)⟩

theorem BelowRoot.concat {names : List Text} (h : BelowRoot names) {name : Text}
    (hname : Ordinary name) (hfree : '/' ∉ name) : BelowRoot (names ++ [name]) where
  ordinary := List.forall_mem_append.mpr ⟨h.ordinary, List.forall_mem_singleton.mpr hname⟩
  free := List.forall_mem_append.mpr ⟨h.free, List.forall_mem_singleton.mpr hfree⟩

/-- Two lists of names below the root spell different paths. -/
theorem BelowRoot.eq_of_joined {names others : List Text} (hnames : BelowRoot names)
    (hothers : BelowRoot others) (hpath : Text.joined ['/'] names = Text.joined ['/'] others) :
    names = others := by
  rw [← steps_joined_of_ne_nil (fun name hname => (hnames.ordinary name hname).1) hnames.free,
    hpath,
    steps_joined_of_ne_nil (fun name hname => (hothers.ordinary name hname).1) hothers.free]

theorem belowRoot_resolve {parts : List Text} (hfree : ∀ part ∈ parts, '/' ∉ part) :
    BelowRoot (resolve true parts) :=
  ⟨ordinary_of_mem_resolve_rooted parts, fun name hname => hfree name (mem_of_mem_resolve hname)⟩

theorem slash_not_mem_of_mem_names {path name : Text} (hname : name ∈ names path) :
    '/' ∉ name :=
  Text.not_mem_of_mem_pieces (mem_of_mem_resolve hname)

theorem belowRoot_names {path : Text} (hpath : isRooted path = true) :
    BelowRoot (names path) := by
  rw [names, hpath]
  exact belowRoot_resolve fun name hname => Text.not_mem_of_mem_pieces hname

theorem slash_mem_of_isRooted {path : Text} (hpath : isRooted path = true) : '/' ∈ path :=
  List.mem_of_mem_head? (beq_iff_eq.mp hpath)

theorem isRooted_append_slash (above rest other : Text) :
    isRooted (above ++ '/' :: rest) = isRooted (above ++ '/' :: other) := by
  cases above <;> rfl

theorem isRooted_joined {parts : List Text} (hne : ∀ part ∈ parts, part ≠ [])
    (hfree : ∀ part ∈ parts, '/' ∉ part) : isRooted (Text.joined ['/'] parts) = false := by
  cases parts with
  | nil => rfl
  | cons part rest =>
      obtain ⟨c, cs, rfl⟩ := List.exists_cons_of_ne_nil (hne part List.mem_cons_self)
      have hc : '/' ≠ c := List.ne_of_not_mem_cons (hfree _ List.mem_cons_self)
      cases rest <;> simp [Text.joined, isRooted, hc.symm]

theorem isRooted_ofNames {rooted : Bool} {names : List Text} (hne : ∀ name ∈ names, name ≠ [])
    (hfree : ∀ name ∈ names, '/' ∉ name) : isRooted (ofNames rooted names) = rooted := by
  cases rooted with
  | true => rfl
  | false =>
      rw [ofNames, if_neg Bool.false_ne_true]
      split
      · rfl
      · exact isRooted_joined hne hfree

/-- A normal path is rooted just as the path is that it is made from. -/
theorem isRooted_normalize (path : Text) : isRooted (normalize path) = isRooted path :=
  isRooted_ofNames (fun _ hname => ne_nil_of_mem_resolve hname)
    fun _ hname => slash_not_mem_of_mem_names hname

theorem names_ofNames {below : List Text} (hbelow : BelowRoot below) :
    names (ofNames true below) = below := by
  change names ('/' :: Text.joined ['/'] below) = below
  rw [names_rooted hbelow.free, resolve_of_ordinary true hbelow.ordinary]

theorem steps_ofNames {below : List Text} (hbelow : BelowRoot below) :
    steps (ofNames true below) = below := by
  change steps ('/' :: Text.joined ['/'] below) = below
  rw [steps_rooted hbelow.free, List.filter_eq_self]
  exact fun name hname => decide_eq_true (hbelow.ordinary name hname).1

theorem ofNames_append {below more : List Text} (hbelow : below ≠ []) (hmore : more ≠ []) :
    ofNames true (below ++ more) = ofNames true below ++ ofNames true more := by
  change '/' :: Text.joined ['/'] (below ++ more) = _
  rw [Text.joined_append ['/'] hbelow hmore]
  simp [ofNames]

theorem ofNames_eq_root_iff {below : List Text} (hbelow : BelowRoot below) :
    ofNames true below = ['/'] ↔ below = [] := by
  constructor
  · intro hroot
    rw [← steps_ofNames hbelow, hroot]
    rfl
  · rintro rfl
    rfl

end PageTemplates.Path
