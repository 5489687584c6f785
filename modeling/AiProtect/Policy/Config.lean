import AiProtect.Policy.Capacity

/-! # Policy files

`core::policy::config`: a file is read, parsed into its ordered `[[policy]]` tables, and each
table is built into a policy. The TOML parser is a parameter; what it does not accept, or
what cannot be read, is an error that names the file.
-/

namespace AiProtect

/-- A `[[policy]]` table; `threshold` is the only type there is. The flag says whether it
    names a `state_db`. -/
inductive PolicyEntry where
  | threshold (config : ThresholdConfig) (stateDb : Bool)

inductive PolicyConfigError where
  | read (path : String)
  | parse (path : String)
  deriving DecidableEq, Repr

def PolicyConfigError.message : PolicyConfigError → String
  | .read path => s!"reading policy file {path} (copy policies/ldap.example.toml to get started)"
  | .parse path => s!"parsing policy file {path}"

namespace PolicyEntry

def config : PolicyEntry → ThresholdConfig
  | .threshold config _ => config

/-- `db` is what opening the `state_db` comes to, if there is one to open. -/
def build (db : ThresholdPolicy.StateDb) : PolicyEntry → ThresholdPolicy
  | .threshold config stateDb => ThresholdPolicy.new config (if stateDb = true then db else .absent)

@[simp] theorem build_config (db : ThresholdPolicy.StateDb) (entry : PolicyEntry) :
    (entry.build db).config = entry.config := by
  cases entry with
  | threshold config stateDb =>
      cases db <;> cases stateDb <;> rfl

end PolicyEntry

/-- `load`: the policies of a file, in its order. -/
def loadPolicies (parse : String → Option (List PolicyEntry)) (path : String) (contents : Option String)
    (db : Nat → ThresholdPolicy.StateDb) : Except PolicyConfigError (List ThresholdPolicy) :=
  match contents with
  | none => .error (.read path)
  | some raw =>
      match parse raw with
      | none => .error (.parse path)
      | some entries => .ok (entries.mapIdx fun index entry => entry.build (db index))

theorem loadPolicies_eq {parse : String → Option (List PolicyEntry)} (path : String) (contents : Option String)
    (db : Nat → ThresholdPolicy.StateDb) :
    (contents.bind parse = none ∧ ∃ error, loadPolicies parse path contents db = .error error) ∨
      ∃ entries, contents.bind parse = some entries ∧
        loadPolicies parse path contents db = .ok (entries.mapIdx fun index entry => entry.build (db index)) := by
  cases contents with
  | none => exact .inl ⟨rfl, _, rfl⟩
  | some raw =>
      cases parsed : parse raw with
      | none => exact .inl ⟨parsed, .parse path, by simp only [loadPolicies, parsed]⟩
      | some entries => exact .inr ⟨entries, parsed, by simp only [loadPolicies, parsed]⟩

end AiProtect
