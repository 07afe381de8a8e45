import DocQuery.Proofs.Dictionary
import DocQuery.Proofs.Expression.Mentions
import DocQuery.Proofs.Store.Fitting
import DocQuery.Proofs.Store.Rendering
import DocQuery.Store.Plan
import Mathlib.Data.List.TakeWhile

/-!
# Names keep their meaning

A name given to an entry was free or stood for this entry already, so that tables only grow, and
what an action says about its result under the tables it leaves holds under all later tables too.
They grow by names that the result mentions, and by no others. An action *yields* a property of
its result, and of what it mentions, when the property holds under every table that extends the
one it leaves; this is put together along the steps of an action.
-/

namespace DocQuery

open Expression

namespace Names

def tables (names : Names) : Tables :=
  ⟨names.fields, names.values⟩

/-- Every name of the earlier tables stands for the same entry in the later ones. -/
structure Extends (earlier later : Names) : Prop where
  fields : ∀ name segment, earlier.fields.get? name = some segment →
    later.fields.get? name = some segment
  values : ∀ name value, earlier.values.get? name = some value →
    later.values.get? name = some value

namespace Extends

theorem refl (names : Names) : Extends names names :=
  ⟨fun _ _ found => found, fun _ _ found => found⟩

theorem trans {first second third : Names}
    (left : Extends first second) (right : Extends second third) : Extends first third :=
  ⟨fun name segment found => right.fields name segment (left.fields name segment found),
    fun name value found => right.values name value (left.values name value found)⟩

end Extends

/-- The aliases and placeholders that are mentioned, in their order. -/
@[ext]
structure Mentions where
  aliases : List String
  placeholders : List String

namespace Mentions

def none : Mentions :=
  ⟨[], []⟩

def append (first second : Mentions) : Mentions :=
  ⟨first.aliases ++ second.aliases, first.placeholders ++ second.placeholders⟩

instance : Append Mentions :=
  ⟨append⟩

def all (several : List Mentions) : Mentions :=
  ⟨several.flatMap aliases, several.flatMap placeholders⟩

@[simp]
theorem aliases_append (first second : Mentions) :
    (first ++ second).aliases = first.aliases ++ second.aliases :=
  rfl

@[simp]
theorem placeholders_append (first second : Mentions) :
    (first ++ second).placeholders = first.placeholders ++ second.placeholders :=
  rfl

@[simp]
theorem mk_append (aliases otherAliases placeholders otherPlaceholders : List String) :
    (⟨aliases, placeholders⟩ : Mentions) ++ ⟨otherAliases, otherPlaceholders⟩ =
      ⟨aliases ++ otherAliases, placeholders ++ otherPlaceholders⟩ :=
  rfl

@[simp]
theorem append_none (mentions : Mentions) : mentions ++ none = mentions := by
  ext1
  · simp [none]
  · simp [none]

@[simp]
theorem all_singleton (mentions : Mentions) : all [mentions] = mentions := by
  simp [all]

theorem all_append (first second : List Mentions) :
    all (first ++ second) = all first ++ all second := by
  simp only [all, List.flatMap_append]
  rfl

end Mentions

/-- The later tables have the names of the earlier ones, and others that are mentioned. -/
structure Grows (earlier : Names) (mentions : Mentions) (later : Names) : Prop where
  kept : Extends earlier later
  aliases : later.fields.keys ⊆ earlier.fields.keys ++ mentions.aliases
  placeholders : later.values.keys ⊆ earlier.values.keys ++ mentions.placeholders
  settled : Settled earlier.fields → Settled later.fields

namespace Grows

/-- Tables that are left as they are. -/
theorem of_same {earlier later : Names} (fields : later.fields = earlier.fields)
    (values : later.values = earlier.values) : Grows earlier .none later := by
  refine ⟨⟨?_, ?_⟩, ?_, ?_, ?_⟩
  · simp [fields]
  · simp [values]
  · simp [fields]
  · simp [values]
  · simp [fields]

theorem trans {first second third : Names} {mentions others : Mentions}
    (left : Grows first mentions second) (right : Grows second others third) :
    Grows first (mentions ++ others) third := by
  refine ⟨left.kept.trans right.kept, ?_, ?_, right.settled ∘ left.settled⟩
  · intro name member
    have fromFirst := @left.aliases name
    have fromSecond := @right.aliases name member
    simp only [Mentions.aliases_append, List.mem_append] at fromFirst fromSecond ⊢
    tauto
  · intro name member
    have fromFirst := @left.placeholders name
    have fromSecond := @right.placeholders name member
    simp only [Mentions.placeholders_append, List.mem_append] at fromFirst fromSecond ⊢
    tauto

end Grows

/-- The tables grow by what the result mentions, and the result has the property under all
tables that extend those that the action leaves. -/
def Yields {β : Type} (action : StateM Names β) (Result : Names → Mentions → β → Prop) : Prop :=
  ∀ names, ∃ mentions, Grows names mentions (action.run names).2 ∧
    ∀ final, Extends (action.run names).2 final → Result final mentions (action.run names).1

namespace Yields

variable {β γ : Type}

theorem pure {Result : Names → Mentions → β → Prop} {value : β}
    (holds : ∀ final, Result final .none value) : Yields (Pure.pure value) Result := by
  intro names
  exact ⟨.none, Grows.of_same rfl rfl, fun final _ => holds final⟩

theorem bind
    {First : Names → Mentions → β → Prop} {Second : Names → Mentions → γ → Prop}
    {action : StateM Names β} {next : β → StateM Names γ}
    (first : Yields action First)
    (second : ∀ value, Yields (next value) fun final others result =>
      ∀ mentions, First final mentions value → Second final (mentions ++ others) result) :
    Yields (action >>= next) Second := by
  intro names
  obtain ⟨mentions, firstGrows, firstHolds⟩ := first names
  obtain ⟨others, secondGrows, secondHolds⟩ :=
    second (action.run names).1 (action.run names).2
  refine ⟨mentions ++ others, firstGrows.trans secondGrows, ?_⟩
  intro final finalExtends
  exact secondHolds final finalExtends mentions
    (firstHolds final (secondGrows.kept.trans finalExtends))

end Yields

/-- A marker followed by characters that names consist of. -/
def IsName (marker : Char) (name : String) : Prop :=
  ∃ characters, name.toList = marker :: characters ∧ ∀ c ∈ characters, isNameChar c = true

theorem isName_safe {marker : Char} {mark : String} (spelled : mark.toList = [marker])
    (text : String) : IsName marker (mark ++ safe text) := by
  refine ⟨(safe text).toList, by simp [spelled], ?_⟩
  intro c member
  simp only [safe, String.toList_ofList, List.mem_map] at member
  obtain ⟨original, _, rfl⟩ := member
  split
  · next kept => exact kept
  · decide

theorem isName_candidate {marker : Char} {base : String} (named : IsName marker base)
    (number : Nat) : IsName marker (candidate base number) := by
  obtain ⟨characters, spelled, areNamed⟩ := named
  cases number with
  | zero =>
      exact ⟨characters, spelled, areNamed⟩
  | succ number =>
      refine ⟨characters ++ '_' :: Nat.toDigits 10 (number + 1), ?_, ?_⟩
      · simp [candidate, spelled, Nat.toString_eq_repr, Nat.toList_repr]
      · intro c member
        rcases List.mem_append.mp member with inBase | inNumber
        · exact areNamed c inBase
        · rcases List.mem_cons.mp inNumber with rfl | digit
          · decide
          · have isDigit := Nat.isDigit_of_mem_toDigits (by decide) (by decide) digit
            simp [isNameChar, Char.isAlphanum, isDigit]

theorem spells_alias {tables : Tables} {name segment : String} (named : IsName '#' name)
    (found : tables.names.get? name = some segment) :
    Spells tables name.toList [.name segment] := by
  obtain ⟨characters, spelled, areNamed⟩ := named
  rw [← String.ofList_toList (s := name), spelled] at found
  rw [spelled]
  exact Spells.fieldAlias areNamed found

theorem spells_placeholder {tables : Tables} {name : String} {value : Attribute}
    (named : IsName ':' name) (found : tables.values.get? name = some value) :
    Spells tables name.toList [.value value] := by
  obtain ⟨characters, spelled, areNamed⟩ := named
  rw [← String.ofList_toList (s := name), spelled] at found
  rw [spelled]
  exact Spells.placeholder areNamed found

theorem spells_path {tables : Tables} {segments names : List String}
    (named : List.Forall₂ (fun segment name =>
      IsName '#' name ∧ tables.names.get? name = some segment) segments names) :
    Spells tables (String.intercalate "." names).toList (pathTokens segments) := by
  induction named with
  | nil =>
      simpa [pathTokens] using Spells.nil
  | cons first rest inductionHypothesis =>
      have firstSpells := spells_alias first.1 first.2
      cases rest with
      | nil =>
          simpa [pathTokens] using firstSpells
      | cons second later =>
          rw [String.intercalate_cons_cons]
          simpa [pathTokens] using firstSpells.append inductionHypothesis.dot (by simp)

/-- The path is a single alias, which stands for the attribute. -/
def IsAlias (tables : Tables) (field path : String) : Prop :=
  IsName '#' path ∧ tables.names.get? path = some field

theorem mem_of_map_cons {token first : Expression.Token} {read : Option (List Expression.Token)}
    {tokens : List Expression.Token} (mapped : read.map (first :: ·) = some tokens)
    (member : token ∈ tokens) :
    token = first ∨ ∃ others, read = some others ∧ token ∈ others := by
  obtain ⟨others, found, rfl⟩ := Option.map_eq_some_iff.mp mapped
  exact (List.mem_cons.mp member).imp_right fun behind => ⟨others, found, behind⟩

/-- A name is scanned only where an alias stands for it. -/
theorem exists_isAlias_of_scan {tables : Tables} {text : List Char}
    {tokens : List Expression.Token} {segment : String}
    (scanned : scan tables text = some tokens) (member : .name segment ∈ tokens) :
    ∃ path, IsAlias tables segment path := by
  fun_induction scan tables text generalizing tokens with
  | case1 =>
      obtain rfl := Option.some.inj scanned
      cases member
  | case2 rest inductionHypothesis =>
      exact inductionHypothesis scanned member
  | case3 _ inductionHypothesis | case4 _ inductionHypothesis | case5 _ inductionHypothesis
  | case6 _ inductionHypothesis | case7 _ inductionHypothesis | case8 _ inductionHypothesis
  | case9 _ inductionHypothesis | case10 _ _ _ inductionHypothesis
  | case11 _ inductionHypothesis | case12 _ _ inductionHypothesis =>
      obtain same | ⟨others, read, behind⟩ := mem_of_map_cons scanned member
      · cases same
      · exact inductionHypothesis read behind
  | case13 rest inductionHypothesis =>
      obtain ⟨entry, found, mapped⟩ := Option.bind_eq_some_iff.mp scanned
      obtain same | ⟨others, read, behind⟩ := mem_of_map_cons mapped member
      · cases same
        have named : IsName '#' (String.ofList ('#' :: rest.takeWhile isNameChar)) :=
          ⟨_, String.toList_ofList, fun c => List.mem_takeWhile_imp⟩
        exact ⟨_, named, found⟩
      · exact inductionHypothesis read behind
  | case14 _ inductionHypothesis
  | case15 _ _ _ _ _ _ _ _ _ _ _ _ _ _ _ inductionHypothesis =>
      -- a placeholder or a keyword
      obtain ⟨entry, _, mapped⟩ := Option.bind_eq_some_iff.mp scanned
      obtain same | ⟨others, read, behind⟩ := mem_of_map_cons mapped member
      · cases same
      · exact inductionHypothesis read behind

/-- The aliases of a text stand for the segments of a path. -/
def NamesPath (tables : Tables) (path text : String) : Prop :=
  List.Forall₂ (fun segment name => IsName '#' name ∧ tables.names.get? name = some segment)
    (Text.split '.' path) (Text.split '.' text)

def NamesValue (tables : Tables) (json : Json) (name : String) : Prop :=
  IsName ':' name ∧ tables.values.get? name = some (.ofJson json)

/-- The path of the clause names the field of the test, and its operands those of the test. -/
structure NamesTest (tables : Tables) (test : StoreTest) (clause : StoreClause) : Prop where
  path : NamesPath tables test.field clause.path
  check : Check.Corresponds (NamesValue tables) test.check clause.check

theorem NamesTest.words {tables : Tables} {test : StoreTest} {clause : StoreClause}
    (named : NamesTest tables test clause) : StoreClause.Words tables test clause := by
  constructor
  · have spelled := spells_path named.path
    rwa [Text.intercalate_split_point] at spelled
  · exact named.check.imp fun json name value => spells_placeholder value.1 value.2

theorem yields_nameSegment (segment : String) :
    Yields (nameSegment segment) fun final mentions name =>
      mentions = ⟨[name], []⟩ ∧ IsName '#' name ∧ final.fields.get? name = some segment := by
  intro names
  have fits := fits_of_fit names.fields ("#" ++ safe segment) segment
  refine ⟨⟨[fit names.fields ("#" ++ safe segment) segment], []⟩, ?_, ?_⟩
  · exact {
      kept := ⟨fun name held found => get?_insert_of_fits fits found, fun _ _ found => found⟩
      aliases := by
        intro name member
        rcases Dictionary.keys_insert member with rfl | earlier
        · exact List.mem_append_right _ List.mem_cons_self
        · exact List.mem_append_left _ earlier
      placeholders := List.subset_append_left _ _
      settled := fun settled => settled.insert segment }
  · intro final finalExtends
    refine ⟨rfl, ?_, ?_⟩
    · obtain ⟨number, _, equality, _⟩ := fit_spec names.fields ("#" ++ safe segment) segment
      change IsName '#' (fit names.fields ("#" ++ safe segment) segment)
      rw [equality]
      exact isName_candidate (isName_safe (by decide) segment) number
    · apply finalExtends.fields
      change (names.fields.insert (fit names.fields ("#" ++ safe segment) segment) segment).get?
        (fit names.fields ("#" ++ safe segment) segment) = some segment
      simp [Dictionary.get?_insert]

theorem yields_placeholder (hint : String) (json : Json) :
    Yields (placeholder hint json) fun final mentions name =>
      mentions = ⟨[], [name]⟩ ∧ NamesValue final.tables json name := by
  intro names
  have fits := fits_of_fit names.values (":" ++ safe hint) (.ofJson json)
  refine ⟨⟨[], [fit names.values (":" ++ safe hint) (.ofJson json)]⟩, ?_, ?_⟩
  · exact {
      kept := ⟨fun _ _ found => found, fun name held found => get?_insert_of_fits fits found⟩
      aliases := List.subset_append_left _ _
      placeholders := by
        intro name member
        rcases Dictionary.keys_insert member with rfl | earlier
        · exact List.mem_append_right _ List.mem_cons_self
        · exact List.mem_append_left _ earlier
      settled := id }
  · intro final finalExtends
    refine ⟨rfl, ?_, ?_⟩
    · obtain ⟨number, _, equality, _⟩ := fit_spec names.values (":" ++ safe hint) (.ofJson json)
      change IsName ':' (fit names.values (":" ++ safe hint) (.ofJson json))
      rw [equality]
      exact isName_candidate (isName_safe (by decide) hint) number
    · apply finalExtends.values
      change (names.values.insert (fit names.values (":" ++ safe hint) (.ofJson json))
        (.ofJson json)).get? (fit names.values (":" ++ safe hint) (.ofJson json)) = _
      simp [Dictionary.get?_insert]

theorem yields_nameSegments (segments : List String) :
    Yields (nameSegments segments) fun final mentions names =>
      mentions = ⟨names, []⟩ ∧ List.Forall₂ (fun segment name =>
        IsName '#' name ∧ final.fields.get? name = some segment) segments names := by
  induction segments with
  | nil =>
      exact Yields.pure fun _ => ⟨rfl, .nil⟩
  | cons segment rest inductionHypothesis =>
      refine (yields_nameSegment segment).bind fun name => ?_
      refine inductionHypothesis.bind fun others => Yields.pure fun final => ?_
      rintro _ ⟨rfl, restNamed⟩ _ ⟨rfl, firstNamed⟩
      exact ⟨by simp, .cons firstNamed restNamed⟩

theorem not_mem_of_isName {marker : Char} {name : String} (named : IsName marker name)
    {c : Char} (different : c ≠ marker) (noNameChar : isNameChar c = false) :
    c ∉ name.toList := by
  obtain ⟨characters, spelled, areNamed⟩ := named
  rw [spelled, List.mem_cons]
  rintro (same | inside)
  · exact different same
  · rw [areNamed c inside] at noNameChar
    cases noNameChar

theorem yields_namePath (path : String) :
    Yields (namePath path) fun final mentions text =>
      mentions = ⟨Text.split '.' text, []⟩ ∧ NamesPath final.tables path text := by
  refine (yields_nameSegments (Text.split '.' path)).bind fun names => ?_
  refine Yields.pure fun final => ?_
  rintro _ ⟨rfl, named⟩
  have nonempty : names ≠ [] := by
    rintro rfl
    have empty := List.forall₂_nil_right_iff.mp named
    exact Text.split_ne_nil '.' path empty
  have whole : ∀ name ∈ names, '.' ∉ name.toList := by
    intro name member
    obtain ⟨segment, _, isName, _⟩ := Related.exists_of_mem named.flip member
    exact not_mem_of_isName isName (by decide) (by decide)
  have parts := Text.split_intercalate_point nonempty whole
  rw [NamesPath, parts]
  exact ⟨by simp, named⟩

theorem yields_placeholders (hint : String) (index : Nat) (jsons : List Json) :
    Yields (placeholders hint index jsons) fun final mentions names =>
      mentions = ⟨[], names⟩ ∧ List.Forall₂ (NamesValue final.tables) jsons names := by
  induction jsons generalizing index with
  | nil =>
      exact Yields.pure fun _ => ⟨rfl, .nil⟩
  | cons json rest inductionHypothesis =>
      refine (yields_placeholder _ json).bind fun name => ?_
      refine (inductionHypothesis (index + 1)).bind fun others => Yields.pure fun final => ?_
      rintro _ ⟨rfl, restNamed⟩ _ ⟨rfl, named⟩
      exact ⟨by simp, .cons named restNamed⟩

theorem yields_hint (parameter : Option String) :
    Yields (hint parameter) fun _ mentions _ => mentions = .none := by
  intro names
  cases parameter with
  | none =>
      exact ⟨.none, Grows.of_same rfl rfl, fun _ _ => rfl⟩
  | some name =>
      exact ⟨.none, Grows.of_same rfl rfl, fun _ _ => rfl⟩

theorem yields_check (parameter : Option String) (check : Check Json) :
    Yields (Names.check parameter check) fun final mentions named =>
      mentions = ⟨[], named.operands⟩ ∧
        Check.Corresponds (NamesValue final.tables) check named := by
  cases check with
  | compare comparator value =>
      refine (yields_hint parameter).bind fun hint => ?_
      refine (yields_placeholder hint value).bind fun name => Yields.pure fun final => ?_
      rintro _ ⟨rfl, named⟩ _ rfl
      exact ⟨by simp [Check.operands, Mentions.none], .compare comparator named⟩
  | within values =>
      refine (yields_hint parameter).bind fun hint => ?_
      refine (yields_placeholders hint 0 values).bind fun names => Yields.pure fun final => ?_
      rintro _ ⟨rfl, named⟩ _ rfl
      exact ⟨by simp [Check.operands, Mentions.none], .within named⟩
  | notWithin values =>
      refine (yields_hint parameter).bind fun hint => ?_
      refine (yields_placeholders hint 0 values).bind fun names => Yields.pure fun final => ?_
      rintro _ ⟨rfl, named⟩ _ rfl
      exact ⟨by simp [Check.operands, Mentions.none], .notWithin named⟩
  | beginsWith value =>
      refine (yields_hint parameter).bind fun hint => ?_
      refine (yields_placeholder hint value).bind fun name => Yields.pure fun final => ?_
      rintro _ ⟨rfl, named⟩ _ rfl
      exact ⟨by simp [Check.operands, Mentions.none], .beginsWith named⟩
  | contains value =>
      refine (yields_hint parameter).bind fun hint => ?_
      refine (yields_placeholder hint value).bind fun name => Yields.pure fun final => ?_
      rintro _ ⟨rfl, named⟩ _ rfl
      exact ⟨by simp [Check.operands, Mentions.none], .contains named⟩
  | present =>
      exact Yields.pure fun _ => ⟨rfl, .present⟩
  | absent =>
      exact Yields.pure fun _ => ⟨rfl, .absent⟩

def Mentions.ofClause (clause : StoreClause) : Mentions :=
  ⟨Text.split '.' clause.path, clause.check.operands⟩

theorem yields_clause (test : StoreTest) :
    Yields (clause test) fun final mentions named =>
      mentions = .ofClause named ∧ NamesTest final.tables test named := by
  refine (yields_namePath test.field).bind fun path => ?_
  refine (yields_check test.parameter test.check).bind fun check => Yields.pure fun final => ?_
  rintro _ ⟨rfl, checkNamed⟩ _ ⟨rfl, pathNamed⟩
  exact ⟨by simp [Mentions.ofClause], pathNamed, checkNamed⟩

section Traversal

variable {α β : Type} {visit : α → StateM Names β} {mentioned : β → Mentions}
  {Related : Names → α → β → Prop}

theorem yields_traverseChain {chain : Chain (Tree α)}
    (nodes : ∀ node ∈ chain.items, Yields (node.traverse visit) fun final mentions image =>
      mentions = .all (image.atoms.map mentioned) ∧
        Tree.Corresponds (Related final) node image) :
    Yields (Tree.traverseChain visit chain) fun final mentions images =>
      mentions = .all ((Formula.atoms images).map mentioned) ∧
        Chain.Corresponds (Tree.Corresponds (Related final)) chain images := by
  induction chain with
  | single node =>
      refine (nodes node (by simp [Chain.items])).bind fun image => Yields.pure fun final => ?_
      rintro _ ⟨rfl, related⟩
      exact ⟨by simp [Formula.atoms_eq_flatMap_items, Chain.items], .single related⟩
  | link node join rest inductionHypothesis =>
      have restNodes := inductionHypothesis fun other member =>
        nodes other (List.mem_cons_of_mem node member)
      refine (nodes node List.mem_cons_self).bind fun image => ?_
      refine restNodes.bind fun images => Yields.pure fun final => ?_
      rintro _ ⟨rfl, restRelated⟩ _ ⟨rfl, related⟩
      refine ⟨?_, .link join related restRelated⟩
      simp [Formula.atoms_eq_flatMap_items, Chain.items, Mentions.all_append]

theorem yields_traverse
    (atoms : ∀ atom, Yields (visit atom) fun final mentions image =>
      mentions = mentioned image ∧ Related final atom image)
    (tree : Tree α) :
    Yields (tree.traverse visit) fun final mentions image =>
      mentions = .all (image.atoms.map mentioned) ∧
        Tree.Corresponds (Related final) tree image := by
  induction tree using Tree.inductOn with
  | leaf atom =>
      simp only [Tree.traverse]
      refine (atoms atom).bind fun image => Yields.pure fun final => ?_
      rintro _ ⟨rfl, related⟩
      exact ⟨by simp, .leaf related⟩
  | group inner inductionHypothesis =>
      simp only [Tree.traverse]
      refine (yields_traverseChain inductionHypothesis).bind fun images =>
        Yields.pure fun final => ?_
      rintro _ ⟨rfl, related⟩
      exact ⟨by simp [Tree.atoms_group, Formula.atoms_eq_flatMap_items], .group related⟩

end Traversal

end Names

namespace StorePlan

open Names (Yields Mentions NamesPath NamesTest)

/-- The clauses of the parts of a condition, each with the claim of its part. -/
theorem yields_nameParts (parts : List Part) :
    Yields (nameParts parts) fun final mentions clauses =>
      mentions = .all ((clauses.flatMap fun clause => clause.2.atoms).map .ofClause) ∧
        List.Forall₂ (fun part clause => clause.1 = part.claim ∧
          Chain.Corresponds (Tree.Corresponds (NamesTest final.tables)) part.formula clause.2)
          parts clauses := by
  induction parts with
  | nil =>
      exact Yields.pure fun _ => ⟨rfl, .nil⟩
  | cons part rest inductionHypothesis =>
      refine (Names.yields_traverseChain fun node _ =>
        Names.yields_traverse Names.yields_clause node).bind fun formula => ?_
      refine inductionHypothesis.bind fun others => Yields.pure fun final => ?_
      rintro _ ⟨rfl, restNamed⟩ _ ⟨rfl, named⟩
      exact ⟨by simp [Mentions.all_append], .cons ⟨rfl, named⟩ restNamed⟩

theorem yields_namePaths (paths : List String) :
    Yields (Names.namePaths paths) fun final mentions texts =>
      mentions = ⟨texts.flatMap (Text.split '.'), []⟩ ∧
        List.Forall₂ (NamesPath final.tables) paths texts := by
  induction paths with
  | nil =>
      exact Yields.pure fun _ => ⟨rfl, .nil⟩
  | cons path rest inductionHypothesis =>
      refine (Names.yields_namePath path).bind fun text => ?_
      refine inductionHypothesis.bind fun others => Yields.pure fun final => ?_
      rintro _ ⟨rfl, restNamed⟩ _ ⟨rfl, named⟩
      exact ⟨by simp, .cons named restNamed⟩

/-- The clauses and columns of the wording name the tests of the parts and the columns asked
for. -/
structure NamesWording (tables : Tables) (parts : List Part) (columns : List String)
    (wording : Wording) : Prop where
  clauses : List.Forall₂ (fun part clause => clause.1 = part.claim ∧
    Chain.Corresponds (Tree.Corresponds (NamesTest tables)) part.formula clause.2)
    parts wording.clauses
  columns : List.Forall₂ (NamesPath tables) columns wording.columns

def Wording.allClauses (wording : Wording) : List StoreClause :=
  wording.clauses.flatMap fun clause => clause.2.atoms

def Wording.mentions (wording : Wording) : Mentions :=
  .all (wording.allClauses.map .ofClause) ++ ⟨wording.columns.flatMap (Text.split '.'), []⟩

theorem yields_wording (parts : List Part) (columns : List String) :
    Yields (wording parts columns) fun final mentions wording =>
      mentions = wording.mentions ∧ NamesWording final.tables parts columns wording := by
  refine (yields_nameParts parts).bind fun clauses => ?_
  refine (yields_namePaths columns).bind fun texts => Yields.pure fun final => ?_
  rintro _ ⟨rfl, columnsNamed⟩ _ ⟨rfl, partsNamed⟩
  exact ⟨by simp [Wording.mentions, Wording.allClauses], partsNamed, columnsNamed⟩

/-- The tables of a statement have the names that its expressions mention, which stand for what
is meant. -/
theorem wording_named (parts : List Part) (columns : List String) :
    let worded := (wording parts columns).run Names.empty
    Names.Grows Names.empty worded.1.mentions worded.2 ∧
      NamesWording worded.2.tables parts columns worded.1 := by
  intro worded
  obtain ⟨_, grows, named⟩ := yields_wording parts columns Names.empty
  obtain ⟨rfl, namesWording⟩ := named worded.2 (Names.Extends.refl _)
  exact ⟨grows, namesWording⟩

end StorePlan

end DocQuery
