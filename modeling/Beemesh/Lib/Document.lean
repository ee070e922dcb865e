import Mathlib.Algebra.Group.Nat.Defs
import Mathlib.Data.List.Basic

/-!
# JSON and YAML documents

Documents as the `serde_json` and `serde_yaml` libraries hold them, with the access and the changes
that programs make by name. An object or a mapping keeps the order of its entries. A tag of a YAML
value is looked through by every access.

## Main definitions

* `Json`, `Json.get`, `Json.asStr`, `Json.asArray`, `Json.asObject`
* `Yaml`, `Yaml.get`, `Yaml.asStr`, `Yaml.asMapping`
* `Yaml.getMut`, `Yaml.insert`, `Yaml.erase`: a change below a key, and of the value at a key
* `Yaml.asU64`, `Yaml.readsAsJson`: unsigned numbers, and documents that read as JSON

## Main results

* `Yaml.get_insert`: the value that was put at a key
* `Yaml.get_getMut`: the value below a key after a change there
* `Yaml.getMut_getMut`, `Yaml.getMut_insert`, `Yaml.erase_insert`: changes in sequence
* `Yaml.insert_eq_self`: a value that is there already is put there
-/

/-! ## JSON -/

inductive Json
  | null
  | bool (b : Bool)
  | number (text : String)
  | string (s : String)
  | array (items : List Json)
  | object (entries : List (String × Json))

namespace Json

def get (key : String) : Json → Option Json
  | object entries => entries.lookup key
  | _ => none

def asStr : Json → Option String
  | string s => some s
  | _ => none

def asArray : Json → Option (List Json)
  | array items => some items
  | _ => none

def asObject : Json → Option (List (String × Json))
  | object entries => some entries
  | _ => none

/-- The text under a key. -/
def getStr (key : String) (v : Json) : Option String := (v.get key).bind asStr

end Json

/-! ## YAML -/

inductive Yaml
  | null
  | bool (b : Bool)
  | number (text : String)
  | string (s : String)
  | sequence (items : List Yaml)
  | mapping (entries : List (Yaml × Yaml))
  | tagged (tag : String) (value : Yaml)

namespace Yaml

def untag : Yaml → Yaml
  | tagged _ value => untag value
  | value => value

def asStr (v : Yaml) : Option String :=
  match v.untag with
  | string s => some s
  | _ => none

def asMapping (v : Yaml) : Option (List (Yaml × Yaml)) :=
  match v.untag with
  | mapping entries => some entries
  | _ => none

/-- The number, where it is one that an unsigned word holds. A number is kept as it is printed. -/
def asU64 (v : Yaml) : Option ℕ :=
  match v.untag with
  | number text =>
    let digits := text.toList
    let n := digits.foldl (fun n c => 10 * n + (c.toNat - 48)) 0
    if digits ≠ [] ∧ digits.all Char.isDigit ∧ n < 2 ^ 64 then some n else none
  | _ => none

/-- The key of an entry is the text `key`. -/
def isKey (key : String) : Yaml → Bool
  | string s => s == key
  | _ => false

/-- The value of the first entry with a key. -/
def lookupKey (key : String) (entries : List (Yaml × Yaml)) : Option Yaml :=
  (entries.find? fun e => isKey key e.1).map Prod.snd

def get (key : String) (v : Yaml) : Option Yaml := v.asMapping.bind (lookupKey key)

/-- The text under a key. -/
def getStr (key : String) (v : Yaml) : Option String := (v.get key).bind asStr

/-- The first entry with a key, changed. -/
def modifyKey (key : String) (f : Yaml → Yaml) : List (Yaml × Yaml) → List (Yaml × Yaml)
  | [] => []
  | e :: entries =>
    if isKey key e.1 then (e.1, f e.2) :: entries else e :: modifyKey key f entries

/-- A value put under a key: in place of the value there, else at the end. -/
def insertKey (key : String) (value : Yaml) (entries : List (Yaml × Yaml)) : List (Yaml × Yaml) :=
  if (lookupKey key entries).isSome then modifyKey key (fun _ => value) entries
  else entries ++ [(string key, value)]

/-- The entries without those of a key. -/
def eraseKey (key : String) (entries : List (Yaml × Yaml)) : List (Yaml × Yaml) :=
  entries.filter fun e => !isKey key e.1

/-- A change of the entries of a mapping, under its tags. -/
def mapMapping (f : List (Yaml × Yaml) → List (Yaml × Yaml)) : Yaml → Yaml
  | tagged tag value => tagged tag (mapMapping f value)
  | mapping entries => mapping (f entries)
  | value => value

/-- A change of the value under a key, if there is one. -/
def getMut (key : String) (f : Yaml → Yaml) : Yaml → Yaml := mapMapping (modifyKey key f)

/-- A value put under a key of a mapping. -/
def insert (key : String) (value : Yaml) : Yaml → Yaml := mapMapping (insertKey key value)

/-- A mapping without the value under a key. -/
def erase (key : String) : Yaml → Yaml := mapMapping (eraseKey key)

/-- A sequence or a mapping, which is no key of JSON. -/
def isCollection : Yaml → Bool
  | sequence _ => true
  | mapping _ => true
  | _ => false

mutual

/-- The document reads as JSON: there are no tags in it, and no key is a collection. -/
def readsAsJson : Yaml → Bool
  | tagged _ _ => false
  | sequence items => allReadAsJson items
  | mapping entries => entriesReadAsJson entries
  | _ => true

def allReadAsJson : List Yaml → Bool
  | [] => true
  | v :: items => readsAsJson v && allReadAsJson items

def entriesReadAsJson : List (Yaml × Yaml) → Bool
  | [] => true
  | (k, v) :: entries =>
    !isCollection k && readsAsJson k && readsAsJson v && entriesReadAsJson entries

end

variable (key : String) (value : Yaml)

theorem lookupKey_modifyKey (f : Yaml → Yaml) (entries : List (Yaml × Yaml)) :
    lookupKey key (modifyKey key f entries) = (lookupKey key entries).map f := by
  induction entries with
  | nil => rfl
  | cons e entries ih =>
    unfold lookupKey at ih ⊢
    rcases hkey : isKey key e.1 with _ | _
    · simp only [modifyKey, hkey, Bool.false_eq_true, if_false, List.find?_cons]
      exact ih
    · simp only [modifyKey, hkey, if_true, List.find?_cons, Option.map_some]

theorem lookupKey_insertKey (entries : List (Yaml × Yaml)) :
    lookupKey key (insertKey key value entries) = some value := by
  unfold insertKey
  split_ifs with hsome
  · obtain ⟨old, hold⟩ := Option.isSome_iff_exists.mp hsome
    rw [lookupKey_modifyKey, hold, Option.map_some]
  · have hnone : entries.find? (fun e => isKey key e.1) = none := by
      simpa [lookupKey] using hsome
    have hkey : isKey key (string key) = true := by simp [isKey]
    rw [lookupKey, List.find?_append, hnone, Option.none_or, List.find?_singleton, if_pos hkey,
      Option.map_some]

theorem isKey_eq_false {key other : String} (h : other ≠ key) {v : Yaml}
    (hkey : isKey key v = true) : isKey other v = false := by
  cases v with
  | string s =>
    have hs : s = key := by simpa [isKey] using hkey
    subst hs
    simpa [isKey] using h.symm
  | _ => rfl

theorem lookupKey_modifyKey_ne {key other : String} (h : other ≠ key) (f : Yaml → Yaml)
    (entries : List (Yaml × Yaml)) :
    lookupKey other (modifyKey key f entries) = lookupKey other entries := by
  induction entries with
  | nil => rfl
  | cons e entries ih =>
    unfold lookupKey at ih ⊢
    rcases hkey : isKey key e.1 with _ | _
    · simp only [modifyKey, hkey, Bool.false_eq_true, if_false, List.find?_cons]
      split
      · rfl
      · exact ih
    · simp only [modifyKey, hkey, if_true, List.find?_cons, isKey_eq_false h hkey]

theorem asMapping_mapMapping (f : List (Yaml × Yaml) → List (Yaml × Yaml)) (v : Yaml) :
    (mapMapping f v).asMapping = v.asMapping.map f := by
  fun_induction mapMapping f v with
  | case1 tag v ih => exact ih
  | case2 entries => rfl
  | case3 v htagged hmapping =>
    cases v with
    | tagged tag v => exact absurd rfl (htagged tag v)
    | mapping entries => exact absurd rfl (hmapping entries)
    | _ => rfl

/-- The value that was put at a key of a mapping. -/
theorem get_insert {v : Yaml} {entries : List (Yaml × Yaml)} (h : v.asMapping = some entries) :
    (insert key value v).get key = some value := by
  rw [get, insert, asMapping_mapMapping, h, Option.map_some, Option.bind_some, lookupKey_insertKey]

/-- The value below a key after a change there. -/
theorem get_getMut (f : Yaml → Yaml) (v : Yaml) : (v.getMut key f).get key = (v.get key).map f := by
  rw [get, get, getMut, asMapping_mapMapping]
  cases v.asMapping with
  | none => rfl
  | some entries => exact lookupKey_modifyKey key f entries

/-- The value below another key stays. -/
theorem get_getMut_ne {key other : String} (h : other ≠ key) (f : Yaml → Yaml) (v : Yaml) :
    (v.getMut key f).get other = v.get other := by
  rw [get, get, getMut, asMapping_mapMapping]
  cases v.asMapping with
  | none => rfl
  | some entries => exact lookupKey_modifyKey_ne h f entries

/-! ## Changes in sequence -/

variable {key value}

theorem mapMapping_mapMapping (f g : List (Yaml × Yaml) → List (Yaml × Yaml)) (v : Yaml) :
    mapMapping f (mapMapping g v) = mapMapping (f ∘ g) v := by
  fun_induction mapMapping g v with
  | case1 tag v ih => exact congrArg (tagged tag) ih
  | case2 entries => rfl
  | case3 v htagged hmapping =>
    cases v with
    | tagged tag v => exact absurd rfl (htagged tag v)
    | mapping entries => exact absurd rfl (hmapping entries)
    | _ => rfl

/-- A change that leaves the entries as they are. -/
theorem mapMapping_eq_self {f : List (Yaml × Yaml) → List (Yaml × Yaml)} {v : Yaml}
    (h : ∀ entries, v.asMapping = some entries → f entries = entries) : mapMapping f v = v := by
  fun_induction mapMapping f v with
  | case1 tag v ih => exact congrArg (tagged tag) (ih h)
  | case2 entries => exact congrArg mapping (h entries rfl)
  | case3 => rfl

theorem modifyKey_modifyKey (key : String) (f g : Yaml → Yaml) (entries : List (Yaml × Yaml)) :
    modifyKey key f (modifyKey key g entries) = modifyKey key (f ∘ g) entries := by
  induction entries with
  | nil => rfl
  | cons e entries ih =>
    rw [modifyKey, modifyKey]
    split_ifs with hkey
    · rw [modifyKey, if_pos hkey]
      rfl
    · rw [modifyKey, if_neg hkey, ih]

/-- Two changes below a key. -/
theorem getMut_getMut (key : String) (f g : Yaml → Yaml) (v : Yaml) :
    (v.getMut key g).getMut key f = v.getMut key (f ∘ g) := by
  rw [getMut, getMut, getMut, mapMapping_mapMapping]
  exact congrArg (mapMapping · v) (funext (modifyKey_modifyKey key f g))

/-- A change below a key that leaves the value there as it is. -/
theorem modifyKey_eq_self {f : Yaml → Yaml} {entries : List (Yaml × Yaml)}
    (h : ∀ v, lookupKey key entries = some v → f v = v) : modifyKey key f entries = entries := by
  induction entries with
  | nil => rfl
  | cons e entries ih =>
    unfold lookupKey at h
    rw [modifyKey]
    split_ifs with hkey
    · rw [List.find?_cons_of_pos (by simpa using hkey)] at h
      rw [h e.2 rfl]
    · rw [List.find?_cons_of_neg (by simpa using hkey)] at h
      exact congrArg (e :: ·) (ih h)

theorem getMut_eq_self {f : Yaml → Yaml} {v : Yaml} (h : ∀ sub, v.get key = some sub → f sub = sub) :
    v.getMut key f = v := by
  refine mapMapping_eq_self fun entries hentries => modifyKey_eq_self fun sub hsub => h sub ?_
  rw [get, hentries, Option.bind_some, hsub]

/-- A value that is there already is put there. -/
theorem insert_eq_self {v : Yaml} (h : v.asMapping.isSome = true → v.get key = some value) :
    insert key value v = v := by
  refine mapMapping_eq_self fun entries hentries => ?_
  have hget := h (by rw [hentries, Option.isSome_some])
  rw [get, hentries, Option.bind_some] at hget
  rw [insertKey, hget, if_pos Option.isSome_some]
  refine modifyKey_eq_self fun sub hsub => ?_
  rw [hget] at hsub
  exact Option.some.inj hsub

theorem asMapping_insert (key : String) (value v : Yaml) :
    (insert key value v).asMapping = v.asMapping.map (insertKey key value) :=
  asMapping_mapMapping _ v

theorem eraseKey_modifyKey (key : String) (f : Yaml → Yaml) (entries : List (Yaml × Yaml)) :
    eraseKey key (modifyKey key f entries) = eraseKey key entries := by
  induction entries with
  | nil => rfl
  | cons e entries ih =>
    rw [modifyKey]
    split_ifs with hkey
    · rw [eraseKey, eraseKey, List.filter_cons_of_neg (by simpa using hkey),
        List.filter_cons_of_neg (by simpa using hkey)]
    · rw [eraseKey, eraseKey, List.filter_cons_of_pos (by simpa using hkey),
        List.filter_cons_of_pos (by simpa using hkey)]
      exact congrArg (e :: ·) ih

/-- A value that was put somewhere is erased with the one that was there. -/
theorem eraseKey_insertKey (key : String) (value : Yaml) (entries : List (Yaml × Yaml)) :
    eraseKey key (insertKey key value entries) = eraseKey key entries := by
  rw [insertKey]
  split_ifs
  · exact eraseKey_modifyKey key _ entries
  · have hkey : isKey key (string key) = true := by simp [isKey]
    rw [eraseKey, List.filter_append, List.filter_singleton]
    simp [hkey, eraseKey]

theorem erase_insert (key : String) (value v : Yaml) :
    (insert key value v).erase key = v.erase key := by
  rw [insert, erase, mapMapping_mapMapping]
  exact congrArg (mapMapping · v) (funext (eraseKey_insertKey key value))

/-- Changes below different keys. -/
theorem modifyKey_comm {key other : String} (h : other ≠ key) (f g : Yaml → Yaml)
    (entries : List (Yaml × Yaml)) :
    modifyKey other f (modifyKey key g entries) = modifyKey key g (modifyKey other f entries) := by
  induction entries with
  | nil => rfl
  | cons e entries ih =>
    by_cases hkey : isKey key e.1 = true
    · have hother : ¬ isKey other e.1 = true := by
        rw [isKey_eq_false h hkey]
        exact Bool.false_ne_true
      simp only [modifyKey, if_pos hkey, if_neg hother]
    · by_cases hother : isKey other e.1 = true
      · simp only [modifyKey, if_neg hkey, if_pos hother]
      · simp only [modifyKey, if_neg hkey, if_neg hother, ih]

theorem modifyKey_concat {key other : String} (h : other ≠ key) (f : Yaml → Yaml) (value : Yaml)
    (entries : List (Yaml × Yaml)) :
    modifyKey other f (entries ++ [(string key, value)]) =
      modifyKey other f entries ++ [(string key, value)] := by
  induction entries with
  | nil => simp [modifyKey, isKey, h.symm]
  | cons e entries ih =>
    rw [List.cons_append, modifyKey, modifyKey, ih]
    split_ifs
    · rfl
    · rfl

/-- A change below a key, and a value put under another one. -/
theorem modifyKey_insertKey {key other : String} (h : other ≠ key) (f : Yaml → Yaml) (value : Yaml)
    (entries : List (Yaml × Yaml)) :
    modifyKey other f (insertKey key value entries) =
      insertKey key value (modifyKey other f entries) := by
  rw [insertKey, insertKey, lookupKey_modifyKey_ne h.symm]
  split_ifs
  · exact modifyKey_comm h f _ entries
  · exact modifyKey_concat h f value entries

theorem getMut_insert {key other : String} (h : other ≠ key) (f : Yaml → Yaml) (value v : Yaml) :
    (insert key value v).getMut other f = insert key value (v.getMut other f) := by
  simp only [insert, getMut, mapMapping_mapMapping]
  exact congrArg (mapMapping · v) (funext (modifyKey_insertKey h f value))

theorem lookupKey_concat_ne {key other : String} (h : other ≠ key) (value : Yaml)
    (entries : List (Yaml × Yaml)) :
    lookupKey other (entries ++ [(string key, value)]) = lookupKey other entries := by
  have hkey : isKey other (string key) = false := by simpa [isKey] using h.symm
  rw [lookupKey, List.find?_append, List.find?_singleton, if_neg (by simp [hkey]), Option.or_none,
    ← lookupKey]

/-- The value under another key stays. -/
theorem get_insert_ne {key other : String} (h : other ≠ key) (value v : Yaml) :
    (insert key value v).get other = v.get other := by
  rw [get, get, asMapping_insert]
  cases v.asMapping with
  | none => rfl
  | some entries =>
    rw [Option.map_some, Option.bind_some, Option.bind_some, insertKey]
    split_ifs
    · exact lookupKey_modifyKey_ne h _ entries
    · exact lookupKey_concat_ne h value entries

end Yaml
