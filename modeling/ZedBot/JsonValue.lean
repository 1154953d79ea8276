import ZedBot.JsNumberText
import ZedBot.JsText
import Mathlib.Data.List.Sort

/-! # The JavaScript value of a JSON text

    A number becomes the double next to what is written, and of members with one key the last
    counts. A value whose objects list their members in another order is read alike.

        text ──parse──▶ as written ──value──▶ distinct keys ──toText──▶ text -/

namespace Json

open JsNumber (Number unsignedNumber)

variable {number : String → Json} {members : List (String × Json) → List (String × Json)}
  {entries entries' : List (String × Json)} {v w : Json} {key : String}

mutual

/-- A value with its numbers and the members of its objects replaced, the inner ones first. -/
def rebuild (number : String → Json) (members : List (String × Json) → List (String × Json)) :
    Json → Json
  | .null => .null
  | .bool b => .bool b
  | .number literal => number literal
  | .string s => .string s
  | .array items => .array (rebuildItems number members items)
  | .object entries => .object (members (rebuildEntries number members entries))

def rebuildItems (number : String → Json)
    (members : List (String × Json) → List (String × Json)) : List Json → List Json
  | [] => []
  | v :: vs => rebuild number members v :: rebuildItems number members vs

def rebuildEntries (number : String → Json)
    (members : List (String × Json) → List (String × Json)) :
    List (String × Json) → List (String × Json)
  | [] => []
  | (k, v) :: es => (k, rebuild number members v) :: rebuildEntries number members es

end

/-- The double of a number as JSON writes it. -/
def numberOf (literal : String) : Number :=
  match literal.toList with
  | '-' :: cs => unsignedNumber true cs
  | cs => unsignedNumber false cs

/-- Sets a property: in its place, or after the others. -/
def assign (key : String) (v : Json) : List (String × Json) → List (String × Json)
  | [] => [(key, v)]
  | e :: es => if e.1 = key then (key, v) :: es else e :: assign key v es

def collapse (entries : List (String × Json)) : List (String × Json) :=
  entries.foldl (fun done e => assign e.1 e.2 done) []

/-- What `JSON.parse` makes of a text; a number is the text of its double. -/
def value : Json → Json := rebuild (fun literal => .number (numberOf literal).text) collapse

/-- The number of a key that is an array index: such keys are enumerated first. -/
def arrayIndex (key : String) : Option ℕ :=
  let n := key.toList.foldl (fun n c => 10 * n + (c.toNat - 48)) 0
  if key.toList = Nat.toDigits 10 n ∧ n < 2 ^ 32 - 1 then some n else none

/-- The members of an object as they are enumerated. -/
def ownMembers (entries : List (String × Json)) : List (String × Json) :=
  (entries.filter fun e => (arrayIndex e.1).isSome).insertionSort
      (fun a b => (arrayIndex a.1).getD 0 ≤ (arrayIndex b.1).getD 0) ++
    entries.filter fun e => (arrayIndex e.1).isNone

def isFiniteText (literal : String) : Bool := literal ∉ ["NaN", "Infinity", "-Infinity"]

/-- `JSON.stringify` of a value: no number but a finite one is written. -/
def toText (v : Json) : String :=
  stringify (rebuild (fun literal => if isFiniteText literal then .number literal else .null)
    ownMembers v)

/-! ### Rebuilt values -/

theorem rebuild_array (items : List Json) :
    rebuild number members (.array items) = .array (items.map (rebuild number members)) := by
  rw [rebuild]
  congr 1
  induction items with
  | nil => rfl
  | cons v vs ih => rw [rebuildItems, ih, List.map_cons]

theorem rebuild_object (entries : List (String × Json)) :
    rebuild number members (.object entries) =
      .object (members (entries.map fun e => (e.1, rebuild number members e.2))) := by
  rw [rebuild]
  congr 2
  induction entries with
  | nil => rfl
  | cons e es ih => rw [rebuildEntries, ih, List.map_cons]

mutual

/-- The keys of every object in a value are as `p` says. -/
def objects (p : List String → Bool) : Json → Bool
  | .array items => objectsOfItems p items
  | .object entries => p (entries.map Prod.fst) && objectsOfEntries p entries
  | .null | .bool _ | .number _ | .string _ => true

def objectsOfItems (p : List String → Bool) : List Json → Bool
  | [] => true
  | v :: vs => objects p v && objectsOfItems p vs

def objectsOfEntries (p : List String → Bool) : List (String × Json) → Bool
  | [] => true
  | (_, v) :: es => objects p v && objectsOfEntries p es

end

variable {p p' : List String → Bool} {q q' : String → Bool}

theorem objects_array {items : List Json} :
    objects p (.array items) = true ↔ ∀ v ∈ items, objects p v = true := by
  rw [objects]
  induction items with
  | nil => exact ⟨fun _ => List.forall_mem_nil _, fun _ => rfl⟩
  | cons v vs ih => rw [objectsOfItems, Bool.and_eq_true, ih, List.forall_mem_cons]

theorem objects_object :
    objects p (.object entries) = true ↔
      p (entries.map Prod.fst) = true ∧ ∀ e ∈ entries, objects p e.2 = true := by
  rw [objects, Bool.and_eq_true]
  refine and_congr Iff.rfl ?_
  induction entries with
  | nil => exact ⟨fun _ => List.forall_mem_nil _, fun _ => rfl⟩
  | cons e es ih => rw [objectsOfEntries, Bool.and_eq_true, ih, List.forall_mem_cons]

theorem keys_rebuilt (entries : List (String × Json)) :
    (entries.map fun e => (e.1, rebuild number members e.2)).map Prod.fst =
      entries.map Prod.fst := by
  rw [List.map_map]
  rfl

theorem objects_rebuild (hnumber : ∀ literal, objects p' (number literal) = true)
    (hsub : ∀ es, members es ⊆ es)
    (hkeys : ∀ es, p (es.map Prod.fst) = true → p' ((members es).map Prod.fst) = true) :
    ∀ v, objects p v = true → objects p' (rebuild number members v) = true := by
  refine induction (fun _ => rfl) (fun _ _ => rfl) (fun literal _ => hnumber literal)
    (fun _ _ => rfl) ?_ ?_
  · intro items ih h
    rw [rebuild_array, objects_array, List.forall_mem_map]
    exact fun v hv => ih v hv (objects_array.mp h v hv)
  · intro entries ih h
    obtain ⟨hown, hinner⟩ := objects_object.mp h
    rw [rebuild_object, objects_object]
    refine ⟨hkeys _ (by rwa [keys_rebuilt]), fun e he => ?_⟩
    obtain ⟨e', he', rfl⟩ := List.mem_map.mp (hsub _ he)
    exact ih e' he' (hinner e' he')

theorem numbers_rebuild (hnumber : ∀ literal, q literal = true → numbers q' (number literal) = true)
    (hsub : ∀ es, members es ⊆ es) :
    ∀ v, numbers q v = true → numbers q' (rebuild number members v) = true := by
  refine induction (fun _ => rfl) (fun _ _ => rfl) hnumber (fun _ _ => rfl) ?_ ?_
  · intro items ih h
    rw [rebuild_array, numbers_array, List.forall_mem_map]
    exact fun v hv => ih v hv (numbers_array.mp h v hv)
  · intro entries ih h
    rw [rebuild_object, numbers_object]
    intro e he
    obtain ⟨e', he', rfl⟩ := List.mem_map.mp (hsub _ he)
    exact ih e' he' (numbers_object.mp h e' he')

/-! ### Values have distinct keys and proper numbers -/

def distinctKeys (keys : List String) : Bool := keys.Nodup

/-- A finite number is written as JSON writes numbers. -/
def isProper (literal : String) : Bool := !isFiniteText literal || isLiteral literal

theorem keys_assign (key : String) (v : Json) (entries : List (String × Json)) :
    (assign key v entries).map Prod.fst =
      if key ∈ entries.map Prod.fst then entries.map Prod.fst
      else entries.map Prod.fst ++ [key] := by
  induction entries with
  | nil => rfl
  | cons e es ih =>
    rw [assign]
    by_cases he : e.1 = key
    · rw [if_pos he, List.map_cons, List.map_cons, if_pos (he ▸ List.mem_cons_self), he]
    · have hmem : key ∈ e.1 :: es.map Prod.fst ↔ key ∈ es.map Prod.fst := by
        rw [List.mem_cons, or_iff_right (Ne.symm he)]
      rw [if_neg he, List.map_cons, ih, List.map_cons]
      by_cases hkey : key ∈ es.map Prod.fst
      · rw [if_pos hkey, if_pos (List.mem_cons_of_mem _ hkey)]
      · rw [if_neg hkey, if_neg (hmem.not.mpr hkey), List.cons_append]

theorem assign_subset (key : String) (v : Json) (entries : List (String × Json)) :
    assign key v entries ⊆ (key, v) :: entries := by
  induction entries with
  | nil => exact List.Subset.refl _
  | cons e es ih =>
    rw [assign]
    split_ifs
    · exact List.cons_subset_cons _ (List.subset_cons_self _ _)
    · refine List.cons_subset.mpr ⟨List.mem_cons_of_mem _ List.mem_cons_self, fun a ha => ?_⟩
      rcases List.mem_cons.mp (ih ha) with rfl | hes
      · exact List.mem_cons_self
      · exact List.mem_cons_of_mem _ (List.mem_cons_of_mem _ hes)

theorem nodup_assign (h : (entries.map Prod.fst).Nodup) :
    ((assign key v entries).map Prod.fst).Nodup := by
  rw [keys_assign]
  split_ifs with hkey
  · exact h
  · exact List.nodup_append.mpr ⟨h, List.nodup_singleton key, by
      rintro a ha b hb rfl
      exact hkey (List.mem_singleton.mp hb ▸ ha)⟩

theorem nodup_collapse (entries : List (String × Json)) :
    ((collapse entries).map Prod.fst).Nodup := by
  suffices h : ∀ done : List (String × Json), (done.map Prod.fst).Nodup →
      ((entries.foldl (fun done e => assign e.1 e.2 done) done).map Prod.fst).Nodup from
    h [] List.nodup_nil
  induction entries with
  | nil => exact fun _ h => h
  | cons e es ih => exact fun done h => ih _ (nodup_assign h)

theorem collapse_subset (entries : List (String × Json)) : collapse entries ⊆ entries := by
  suffices h : ∀ done : List (String × Json),
      entries.foldl (fun done e => assign e.1 e.2 done) done ⊆ done ++ entries from h []
  induction entries with
  | nil => exact fun done => (List.append_nil done).symm ▸ List.Subset.refl _
  | cons e es ih =>
    intro done a ha
    rcases List.mem_append.mp (ih _ ha) with hdone | hes
    · rcases List.mem_cons.mp (assign_subset _ _ _ hdone) with rfl | hdone
      · exact List.mem_append_right _ List.mem_cons_self
      · exact List.mem_append_left _ hdone
    · exact List.mem_append_right _ (List.mem_cons_of_mem e hes)

theorem objects_all : ∀ v, objects (fun _ => true) v = true := by
  refine induction rfl (fun _ => rfl) (fun _ => rfl) (fun _ => rfl) ?_ ?_
  · exact fun items ih => objects_array.mpr ih
  · exact fun entries ih => objects_object.mpr ⟨rfl, ih⟩

theorem numbers_all : ∀ v, numbers (fun _ => true) v = true := by
  refine induction rfl (fun _ => rfl) (fun _ => rfl) (fun _ => rfl) ?_ ?_
  · exact fun items ih => numbers_array.mpr ih
  · exact fun entries ih => numbers_object.mpr ih

theorem distinct_value (t : Json) : objects distinctKeys (value t) = true :=
  objects_rebuild (fun _ => rfl) collapse_subset
    (fun es _ => decide_eq_true (nodup_collapse es)) t (objects_all t)

theorem proper_value (t : Json) : numbers isProper (value t) = true := by
  refine numbers_rebuild (fun literal _ => ?_) collapse_subset t (numbers_all t)
  change isProper (numberOf literal).text = true
  cases numberOf literal with
  | nan => rfl
  | infinity negative => cases negative <;> rfl
  | finite q =>
    rw [isProper, isLiteral, JsNumber.isNumber_text, Bool.or_true]

/-! ### Objects in another order -/

/-- The same value up to the order of the members of its objects, at any depth. -/
inductive Reordered : Json → Json → Prop
  | refl (v : Json) : Reordered v v
  | trans {u v w : Json} : Reordered u v → Reordered v w → Reordered u w
  | perm {entries entries' : List (String × Json)} (h : entries.Perm entries') :
      Reordered (.object entries) (.object entries')
  | item (before after : List Json) {v w : Json} (h : Reordered v w) :
      Reordered (.array (before ++ v :: after)) (.array (before ++ w :: after))
  | member (before after : List (String × Json)) (key : String) {v w : Json}
      (h : Reordered v w) :
      Reordered (.object (before ++ (key, v) :: after)) (.object (before ++ (key, w) :: after))

theorem Reordered.of_items {f : Json → Json} (before items : List Json)
    (h : ∀ v ∈ items, Reordered v (f v)) :
    Reordered (.array (before ++ items)) (.array (before ++ items.map f)) := by
  induction items generalizing before with
  | nil => exact .refl _
  | cons v vs ih =>
    obtain ⟨hv, hvs⟩ := List.forall_mem_cons.mp h
    have hrest := ih (before ++ [f v]) hvs
    rw [List.append_assoc, List.append_assoc] at hrest
    exact (Reordered.item before vs hv).trans hrest

theorem Reordered.of_members {f : Json → Json} (before entries : List (String × Json))
    (h : ∀ e ∈ entries, Reordered e.2 (f e.2)) :
    Reordered (.object (before ++ entries))
      (.object (before ++ entries.map fun e => (e.1, f e.2))) := by
  induction entries generalizing before with
  | nil => exact .refl _
  | cons e es ih =>
    obtain ⟨he, hes⟩ := List.forall_mem_cons.mp h
    have hrest := ih (before ++ [(e.1, f e.2)]) hes
    rw [List.append_assoc, List.append_assoc] at hrest
    exact (Reordered.member before es e.1 he).trans hrest

/-- Rebuilding that only reorders gives the same value up to order. -/
theorem reordered_rebuild (hnumber : ∀ literal, q literal = true → number literal = .number literal)
    (hmembers : ∀ es, p (es.map Prod.fst) = true → (members es).Perm es) :
    ∀ v, numbers q v = true → objects p v = true → Reordered v (rebuild number members v) := by
  refine induction (fun _ _ => .refl _) (fun _ _ _ => .refl _) ?_ (fun _ _ _ => .refl _) ?_ ?_
  · intro literal hq _
    rw [rebuild, hnumber literal hq]
    exact .refl _
  · intro items ih hq hp
    rw [rebuild_array]
    exact .of_items [] items fun v hv =>
      ih v hv (numbers_array.mp hq v hv) (objects_array.mp hp v hv)
  · intro entries ih hq hp
    obtain ⟨hown, hinner⟩ := objects_object.mp hp
    rw [rebuild_object]
    refine (Reordered.of_members [] entries fun e he =>
      ih e he (numbers_object.mp hq e he) (hinner e he)).trans (.perm ?_)
    exact (hmembers _ (by rwa [List.nil_append, keys_rebuilt])).symm

theorem distinct_perm {keys keys' : List String} (h : keys.Perm keys')
    (hd : distinctKeys keys = true) : distinctKeys keys' = true :=
  decide_eq_true (h.nodup_iff.mp (of_decide_eq_true hd))

theorem Reordered.distinct (h : Reordered v w) (hv : objects distinctKeys v = true) :
    objects distinctKeys w = true := by
  induction h with
  | refl v => exact hv
  | trans _ _ ih ih' => exact ih' (ih hv)
  | perm h =>
    obtain ⟨hown, hinner⟩ := objects_object.mp hv
    exact objects_object.mpr ⟨distinct_perm (h.map _) hown, fun e he => hinner e (h.symm.subset he)⟩
  | item before after h ih =>
    have hitems := objects_array.mp hv
    refine objects_array.mpr fun u hu => ?_
    rcases List.mem_append.mp hu with hu | hu
    · exact hitems u (List.mem_append_left _ hu)
    · rcases List.mem_cons.mp hu with rfl | hu
      · exact ih (hitems _ (List.mem_append_right _ List.mem_cons_self))
      · exact hitems u (List.mem_append_right _ (List.mem_cons_of_mem _ hu))
  | member before after key h ih =>
    obtain ⟨hown, hinner⟩ := objects_object.mp hv
    refine objects_object.mpr ⟨by simpa using hown, fun e he => ?_⟩
    rcases List.mem_append.mp he with he | he
    · exact hinner e (List.mem_append_left _ he)
    · rcases List.mem_cons.mp he with rfl | he
      · exact ih (hinner _ (List.mem_append_right _ List.mem_cons_self))
      · exact hinner e (List.mem_append_right _ (List.mem_cons_of_mem _ he))

/-- Rebuilding that forgets the order of members makes reordered values one. -/
theorem Reordered.rebuild_eq (h : Reordered v w) (hv : objects distinctKeys v = true)
    (hmembers : ∀ es es' : List (String × Json), (es.map Prod.fst).Nodup → es.Perm es' →
      members es = members es') :
    rebuild number members v = rebuild number members w := by
  induction h with
  | refl v => rfl
  | trans h _ ih ih' => rw [ih hv, ih' (h.distinct hv)]
  | perm h =>
    have hown := of_decide_eq_true (objects_object.mp hv).1
    rw [rebuild_object, rebuild_object, hmembers _ _ (by rwa [keys_rebuilt]) (h.map _)]
  | item before after h ih =>
    have hinner := objects_array.mp hv _ (List.mem_append_right _ List.mem_cons_self)
    rw [rebuild_array, rebuild_array, List.map_append, List.map_append, List.map_cons,
      List.map_cons, ih hinner]
  | member before after key h ih =>
    have hinner := (objects_object.mp hv).2 _ (List.mem_append_right _ List.mem_cons_self)
    rw [rebuild_object, rebuild_object, List.map_append, List.map_append, List.map_cons,
      List.map_cons, ih hinner]

/-! ### The text of a value -/

theorem ownMembers_perm (entries : List (String × Json)) : (ownMembers entries).Perm entries := by
  have hnone : (entries.filter fun e => (arrayIndex e.1).isNone) =
      entries.filter fun e => !(arrayIndex e.1).isSome :=
    List.filter_congr fun e _ => (Option.not_isSome (arrayIndex e.1)).symm
  rw [ownMembers, hnone]
  exact ((List.perm_insertionSort _ _).append_right _).trans (List.filter_append_perm _ _)

theorem finite_of_literal {literal : String} (h : isLiteral literal = true) :
    isFiniteText literal = true := by
  refine decide_eq_true fun hmem => ?_
  simp only [List.mem_cons, List.not_mem_nil, or_false] at hmem
  rcases hmem with rfl | rfl | rfl <;> exact absurd h (by decide)

theorem literal_of_proper : ∀ v, numbers isProper v = true → numbers isFiniteText v = true →
    numbers isLiteral v = true := by
  refine induction (fun _ _ => rfl) (fun _ _ _ => rfl) ?_ (fun _ _ _ => rfl) ?_ ?_
  · intro literal hproper hfinite
    have hfinite : isFiniteText literal = true := hfinite
    rwa [numbers, isProper, hfinite] at hproper
  · intro items ih hproper hfinite
    exact numbers_array.mpr fun v hv =>
      ih v hv (numbers_array.mp hproper v hv) (numbers_array.mp hfinite v hv)
  · intro entries ih hproper hfinite
    exact numbers_object.mpr fun e he =>
      ih e he (numbers_object.mp hproper e he) (numbers_object.mp hfinite e he)

theorem write_literal {literal : String} (h : isLiteral literal = true) :
    (if isFiniteText literal then Json.number literal else .null) = .number literal :=
  if_pos (finite_of_literal h)

/-- Values with no numbers but literals that are written alike are one up to order. -/
theorem reordered_of_toText (hv : numbers isLiteral v = true) (hw : numbers isLiteral w = true)
    (h : toText v = toText w) : ∃ u, Reordered v u ∧ Reordered w u := by
  have hwritten : ∀ v, numbers isLiteral v = true → numbers isLiteral
      (rebuild (fun literal => if isFiniteText literal then .number literal else .null)
        ownMembers v) = true :=
    numbers_rebuild (fun literal hl => by rwa [write_literal hl]) fun es =>
      (ownMembers_perm es).subset
  have hsame := stringify_inj (hwritten v hv) (hwritten w hw) h
  refine ⟨_, reordered_rebuild (fun _ => write_literal) (fun es _ => ownMembers_perm es) v hv
    (objects_all v), ?_⟩
  rw [hsame]
  exact reordered_rebuild (fun _ => write_literal) (fun es _ => ownMembers_perm es) w hw
    (objects_all w)

/-! ### Reading a value -/

/-- A property of a value. -/
def get (v : Json) (key : String) : Option Json :=
  match v with
  | .object entries => member entries key
  | _ => none

def isObject : Json → Bool
  | .object _ => true
  | _ => false

def asString : Json → Option String
  | .string s => some s
  | _ => none

theorem Reordered.isObject_eq (h : Reordered v w) : isObject v = isObject w := by
  induction h with
  | refl => rfl
  | trans _ _ ih ih' => exact ih.trans ih'
  | perm | item | member => rfl

theorem Reordered.null_iff (h : Reordered v w) : v = .null ↔ w = .null := by
  induction h with
  | refl => exact Iff.rfl
  | trans _ _ ih ih' => exact ih.trans ih'
  | perm | item | member => exact ⟨nofun, nofun⟩

theorem Reordered.asString_eq (h : Reordered v w) : asString v = asString w := by
  induction h with
  | refl => rfl
  | trans _ _ ih ih' => exact ih.trans ih'
  | perm | item | member => rfl

theorem member_eq_some (h : (entries.map Prod.fst).Nodup) :
    member entries key = some v ↔ (key, v) ∈ entries := by
  rw [member, Option.map_eq_some_iff]
  constructor
  · rintro ⟨e, hfind, rfl⟩
    have hkey := List.find?_some hfind
    rw [beq_iff_eq] at hkey
    exact hkey ▸ List.mem_reverse.mp (List.mem_of_find?_eq_some hfind)
  · intro hmem
    have hfound : (entries.reverse.find? fun e => e.1 == key).isSome :=
      List.find?_isSome.mpr ⟨(key, v), List.mem_reverse.mpr hmem, beq_self_eq_true key⟩
    obtain ⟨e, hfind⟩ := Option.isSome_iff_exists.mp hfound
    have hkey := List.find?_some hfind
    rw [beq_iff_eq] at hkey
    have he := List.mem_reverse.mp (List.mem_of_find?_eq_some hfind)
    have heq : e = (key, v) := List.inj_on_of_nodup_map h he hmem hkey
    exact ⟨e, hfind, by rw [heq]⟩

theorem member_perm (h : (entries.map Prod.fst).Nodup) (hperm : entries.Perm entries') :
    member entries key = member entries' key := by
  ext v
  rw [member_eq_some h, member_eq_some ((hperm.map _).nodup_iff.mp h), hperm.mem_iff]

theorem member_append (before after : List (String × Json)) :
    member (before ++ after) key = (member after key).or (member before key) := by
  rw [member, List.reverse_append, List.find?_append, Option.map_or]
  rfl

theorem rel_refl (u : Option Json) : Option.Rel Reordered u u := by
  cases u with
  | none => exact .none
  | some u => exact .some (.refl u)

theorem rel_trans {a b c : Option Json} (h : Option.Rel Reordered a b)
    (h' : Option.Rel Reordered b c) : Option.Rel Reordered a c := by
  cases h with
  | none => exact h'
  | some h =>
    cases h' with
    | some h' => exact .some (h.trans h')

theorem rel_or {a a' b b' : Option Json} (ha : Option.Rel Reordered a a')
    (hb : Option.Rel Reordered b b') : Option.Rel Reordered (a.or b) (a'.or b') := by
  cases ha with
  | none => exact hb
  | some h => exact .some h

theorem member_replaced (before after : List (String × Json)) (key' : String)
    (h : Reordered v w) :
    Option.Rel Reordered (member (before ++ (key', v) :: after) key)
      (member (before ++ (key', w) :: after) key) := by
  have hone : Option.Rel Reordered (member [(key', v)] key) (member [(key', w)] key) := by
    rw [member, member, List.reverse_singleton, List.reverse_singleton, List.find?_singleton,
      List.find?_singleton]
    split_ifs
    · exact .some h
    · exact .none
  rw [← List.singleton_append, ← List.singleton_append (x := (key', w)), member_append,
    member_append, member_append, member_append]
  exact rel_or (rel_or (rel_refl _) hone) (rel_refl _)

/-- A property of reordered values is the same up to order. -/
theorem Reordered.get_rel (h : Reordered v w) (hv : objects distinctKeys v = true) (key : String) :
    Option.Rel Reordered (get v key) (get w key) := by
  induction h with
  | refl v => exact rel_refl _
  | trans h _ ih ih' =>
    exact rel_trans (ih hv) (ih' (h.distinct hv))
  | perm h =>
    have hown := of_decide_eq_true (objects_object.mp hv).1
    change Option.Rel Reordered (Json.member _ key) (Json.member _ key)
    rw [member_perm hown h]
    exact rel_refl _
  | item => exact .none
  | member before after key' h ih => exact member_replaced before after key' h

end Json
