/-
JSON documents, as `model_dump(mode="json")` yields them, and the payload gate of
`core/payload_security.py`.

  • `Json.beq_iff`: documents have decidable equality.
  • `ensurePayloadHasNoSecrets_ok`: the gate passes exactly the documents that name no sensitive
    field, at any depth.
-/
import CapitalCipher.Schemas.Common

namespace CapitalCipher

inductive Json where
  | null
  | bool (b : Bool)
  | num (q : ℚ)
  | str (s : String)
  | arr (items : List Json)
  | obj (fields : List (String × Json))

mutual

def Json.beq : Json → Json → Bool
  | .null, .null => true
  | .bool a, .bool b => a == b
  | .num a, .num b => decide (a = b)
  | .str a, .str b => decide (a = b)
  | .arr a, .arr b => Json.beqItems a b
  | .obj a, .obj b => Json.beqFields a b
  | _, _ => false

def Json.beqItems : List Json → List Json → Bool
  | [], [] => true
  | a :: l, b :: m => a.beq b && Json.beqItems l m
  | _, _ => false

def Json.beqFields : List (String × Json) → List (String × Json) → Bool
  | [], [] => true
  | (k, a) :: l, (k', b) :: m => decide (k = k') && a.beq b && Json.beqFields l m
  | _, _ => false

end

mutual

theorem Json.beq_iff : ∀ a b : Json, a.beq b = true ↔ a = b
  | .null, b => by cases b <;> simp [Json.beq]
  | .bool a, b => by cases b <;> simp [Json.beq]
  | .num a, b => by cases b <;> simp [Json.beq]
  | .str a, b => by cases b <;> simp [Json.beq]
  | .arr a, b => by cases b <;> simp [Json.beq, Json.beqItems_iff a]
  | .obj a, b => by cases b <;> simp [Json.beq, Json.beqFields_iff a]

theorem Json.beqItems_iff : ∀ l m : List Json, Json.beqItems l m = true ↔ l = m
  | [], m => by cases m <;> simp [Json.beqItems]
  | a :: l, m => by cases m <;> simp [Json.beqItems, Json.beq_iff a, Json.beqItems_iff l]

theorem Json.beqFields_iff : ∀ l m : List (String × Json), Json.beqFields l m = true ↔ l = m
  | [], m => by cases m <;> simp [Json.beqFields]
  | (k, a) :: l, m => by
    cases m with
    | nil => simp [Json.beqFields]
    | cons x m =>
      obtain ⟨k', b⟩ := x
      simp [Json.beqFields, Json.beq_iff a, Json.beqFields_iff l, and_assoc]

end

instance : DecidableEq Json := fun a b => decidable_of_iff _ (Json.beq_iff a b)

/-- `SENSITIVE_FIELD_NAMES` -/
def sensitiveFieldNames : List String :=
  ["api_key", "api_secret", "authorization", "access_token", "refresh_token", "password",
   "private_key", "secret", "token"]

/-- `str.isspace` of one character -/
def isSpace (c : Char) : Bool :=
  c.toNat ∈ [9, 10, 11, 12, 13, 28, 29, 30, 31, 32, 133, 160, 5760, 8232, 8233, 8239, 8287, 12288] ||
    decide (8192 ≤ c.toNat ∧ c.toNat ≤ 8202)

/-- `str.lower`, as far as it yields ASCII: the Kelvin sign is lowered to a plain `k` -/
def lowerChar (c : Char) : Char := if c.toNat = 8490 then 'k' else c.toLower

/-- `str(key).strip().lower().replace("-", "_")` -/
def normalizedKey (key : String) : List Char :=
  let stripped := ((key.toList.dropWhile isSpace).reverse.dropWhile isSpace).reverse
  stripped.map fun c => if lowerChar c = '-' then '_' else lowerChar c

/-- `normalized in SENSITIVE_FIELD_NAMES` -/
def isSensitiveKey (key : String) : Bool :=
  sensitiveFieldNames.any fun name => name.toList == normalizedKey key

mutual

/-- `sensitive_payload_path` -/
def sensitivePayloadPath (path : String) : Json → Option String
  | .obj fields => sensitiveField path fields
  | .arr items => sensitiveItem path 0 items
  | _ => none

/-- the first sensitive field of an object, in the object's order -/
def sensitiveField (path : String) : List (String × Json) → Option String
  | [] => none
  | (key, child) :: fields =>
    if isSensitiveKey key then some (path ++ "." ++ key)
    else (sensitivePayloadPath (path ++ "." ++ key) child).or (sensitiveField path fields)

/-- the first sensitive field of an array's items, from `index` on -/
def sensitiveItem (path : String) (index : ℕ) : List Json → Option String
  | [] => none
  | child :: items =>
    (sensitivePayloadPath (path ++ "[" ++ toString index ++ "]") child).or
      (sensitiveItem path (index + 1) items)

end

/-- `ensure_payload_has_no_secrets` -/
def ensurePayloadHasNoSecrets (payload : Json) : Except Error Unit :=
  match sensitivePayloadPath "payload" payload with
  | some path =>
    .error ⟨.transport, "Sensitive field is forbidden in event payload: " ++ path⟩
  | none => .ok ()

mutual

/-- a document names a sensitive field somewhere inside it -/
def Json.Sensitive : Json → Prop
  | .obj fields => Json.SensitiveFields fields
  | .arr items => Json.SensitiveItems items
  | _ => False

def Json.SensitiveFields : List (String × Json) → Prop
  | [] => False
  | (key, child) :: fields =>
    isSensitiveKey key = true ∨ child.Sensitive ∨ Json.SensitiveFields fields

def Json.SensitiveItems : List Json → Prop
  | [] => False
  | child :: items => child.Sensitive ∨ Json.SensitiveItems items

end

mutual

theorem sensitivePayloadPath_none :
    ∀ (path : String) (a : Json), sensitivePayloadPath path a = none ↔ ¬ a.Sensitive
  | path, .obj fields => by
    simp [sensitivePayloadPath, Json.Sensitive, sensitiveField_none path fields]
  | path, .arr items => by
    simp [sensitivePayloadPath, Json.Sensitive, sensitiveItem_none path 0 items]
  | _, .null | _, .bool _ | _, .num _ | _, .str _ => by
    simp [sensitivePayloadPath, Json.Sensitive]

theorem sensitiveField_none : ∀ (path : String) (fields : List (String × Json)),
    sensitiveField path fields = none ↔ ¬ Json.SensitiveFields fields
  | _, [] => by simp [sensitiveField, Json.SensitiveFields]
  | path, (key, child) :: fields => by
    by_cases h : isSensitiveKey key = true
    · simp [sensitiveField, Json.SensitiveFields, h]
    · simp [sensitiveField, Json.SensitiveFields, h,
        sensitivePayloadPath_none (path ++ "." ++ key) child, sensitiveField_none path fields]

theorem sensitiveItem_none : ∀ (path : String) (index : ℕ) (items : List Json),
    sensitiveItem path index items = none ↔ ¬ Json.SensitiveItems items
  | _, _, [] => by simp [sensitiveItem, Json.SensitiveItems]
  | path, index, child :: items => by
    have hchild := sensitivePayloadPath_none (path ++ "[" ++ toString index ++ "]") child
    rw [sensitiveItem, Json.SensitiveItems, Option.or_eq_none_iff, hchild,
      sensitiveItem_none path (index + 1) items, not_or]

end

/-- the gate passes exactly the documents without a sensitive field -/
theorem ensurePayloadHasNoSecrets_ok {payload : Json} :
    ensurePayloadHasNoSecrets payload = .ok () ↔ ¬ payload.Sensitive := by
  rw [← sensitivePayloadPath_none "payload", ensurePayloadHasNoSecrets]
  cases sensitivePayloadPath "payload" payload <;> simp

example : sensitivePayloadPath "payload" (.obj [("a", .arr [.null, .obj [("API-Key", .null)]])]) =
    some "payload.a[1].API-Key" := by decide +kernel

end CapitalCipher
