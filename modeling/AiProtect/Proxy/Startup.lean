import AiProtect.Proxy.Exactness
import AiProtect.Proxy.Supervisor
import AiProtect.Upstream.Pool

/-! # From the configuration file to the tasks

`run` loads a configuration and builds every `[[proxy]]` entry of it, with its connector, its
TLS settings on both sides and its policies, before it spawns a task. What it finds on the
host is a parameter: the files, the metrics and health listeners, and what `rustls` makes of
certificates and keys.

Start-up fails closed. Either every entry runs as it is configured, or nothing listens; in
particular TLS that is configured is never left out, on neither side.
-/

namespace AiProtect

open Places

inductive ConfigError where
  | read (path : String)
  | parse (path : String)
  | noProxies (path : String)
  deriving DecidableEq, Repr

def ConfigError.message : ConfigError → String
  | .read path => s!"reading config file {path} (copy config.example.toml to get started)"
  | .parse path => s!"parsing config file {path}"
  | .noProxies path => s!"config file {path} has no [[proxy]] entries — nothing to listen on"

structure ConnectionLimits where
  maxConnections : Nat
  ioTimeout : Nat
  shutdownTimeout : Nat
  deriving DecidableEq, Repr

def ConnectionLimits.default : ConnectionLimits := ⟨1024, fromSecs 60, fromSecs 30⟩

def defaultFailureCooldownSecs : Nat := 30

structure UpstreamTlsConfig where
  serverName : String
  caFile : Option String
  clientCert : Option (String × String)
  starttls : Bool

structure ListenTlsConfig where
  certFile : String
  keyFile : String
  clientCaFile : Option String

/-- A `[[proxy]]` table of the file, with `none` for each field with a default that is not
    there. -/
structure ProxyTable where
  listenAddr : SocketAddr
  upstreamAddrs : List SocketAddr
  upstreamStrategy : Option LoadBalanceStrategy
  upstreamFailureCooldownSecs : Option Nat
  upstreamTls : Option UpstreamTlsConfig
  listenTls : Option ListenTlsConfig
  listenStarttls : Option ListenTlsConfig
  maxConnections : Option Nat
  ioTimeoutSecs : Option Nat
  shutdownTimeoutSecs : Option Nat
  policyFile : String

structure ConfigTable where
  proxy : List ProxyTable
  metrics : Option SocketAddr
  health : Option SocketAddr

structure ProxyConfig where
  listenAddr : SocketAddr
  upstreamAddrs : List SocketAddr
  upstreamStrategy : LoadBalanceStrategy
  upstreamFailureCooldownSecs : Nat
  upstreamTls : Option UpstreamTlsConfig
  listenTls : Option ListenTlsConfig
  listenStarttls : Option ListenTlsConfig
  maxConnections : Nat
  ioTimeoutSecs : Nat
  shutdownTimeoutSecs : Nat
  policyFile : String

structure Config where
  proxy : List ProxyConfig
  metrics : Option SocketAddr
  health : Option SocketAddr

def deserializeNonEmptyAddrs (addrs : List SocketAddr) : Except String (List SocketAddr) :=
  if addrs.isEmpty = true then .error "upstream_addrs must have at least one address" else .ok addrs

def ProxyConfig.deserialize (table : ProxyTable) : Except String ProxyConfig := do
  let upstreamAddrs ← deserializeNonEmptyAddrs table.upstreamAddrs
  return {
    listenAddr := table.listenAddr
    upstreamAddrs
    upstreamStrategy := table.upstreamStrategy.getD .roundRobin
    upstreamFailureCooldownSecs := table.upstreamFailureCooldownSecs.getD defaultFailureCooldownSecs
    upstreamTls := table.upstreamTls
    listenTls := table.listenTls
    listenStarttls := table.listenStarttls
    maxConnections := table.maxConnections.getD ConnectionLimits.default.maxConnections
    ioTimeoutSecs := table.ioTimeoutSecs.getD (ConnectionLimits.default.ioTimeout / fromSecs 1)
    shutdownTimeoutSecs := table.shutdownTimeoutSecs.getD (ConnectionLimits.default.shutdownTimeout / fromSecs 1)
    policyFile := table.policyFile }

def Config.deserialize (table : ConfigTable) : Except String Config := do
  let proxy ← tryEach (fun _ => ProxyConfig.deserialize) 0 table.proxy
  return ⟨proxy, table.metrics, table.health⟩

/-- `Config::load`. The TOML parser is a parameter. -/
def Config.load (toml : String → Option ConfigTable) (path : String) (contents : Option String) :
    Except ConfigError Config :=
  match contents with
  | none => .error (.read path)
  | some raw =>
      match toml raw with
      | none => .error (.parse path)
      | some table =>
          match Config.deserialize table with
          | .error _ => .error (.parse path)
          | .ok config => if config.proxy.isEmpty = true then .error (.noProxies path) else .ok config

/-- What keeps `run` from serving: an error it returns, or a panic. -/
inductive Error where
  | config (error : ConfigError)
  | policy (error : PolicyConfigError)
  | tls (message : String)
  | metrics
  | health
  | missingConnector
  deriving DecidableEq, Repr

inductive Stop where
  | error (error : Error)
  | panic (message : String)
  deriving DecidableEq, Repr

/-- What start-up finds: what `rustls` makes of TLS settings, whether the metrics and health
    listeners come up, and, for each entry, the policy file and the state databases as they
    are when that entry is built. -/
structure Host (υ τ : Type) where
  upstreamTls : String → Option String → Option (String × String) → Except String υ
  listenTls : ListenTlsConfig → Except String τ
  metrics : SocketAddr → Bool
  health : SocketAddr → Bool
  policyFile : Nat → String → Option String
  stateDb : Nat → Nat → ThresholdPolicy.StateDb

/-- The connector of an entry, as far as its upstream goes. -/
structure UpstreamConnector (υ : Type) where
  pool : UpstreamPool
  upstreamTls : Option υ
  upstreamStarttls : Bool

namespace UpstreamConnector

variable {υ : Type}

/-- `UpstreamPool::new` has no pool without a target. -/
def withTargets (upstreamAddrs : List SocketAddr) (strategy : LoadBalanceStrategy) (failureCooldown : Nat)
    (upstreamTls : Option υ) : Except Stop (UpstreamConnector υ) :=
  if nonempty : upstreamAddrs ≠ [] then .ok ⟨.new upstreamAddrs nonempty strategy failureCooldown, upstreamTls, false⟩
  else .error (.panic "UpstreamPool needs at least one target")

def withStarttls (connector : UpstreamConnector υ) (enabled : Bool) : UpstreamConnector υ :=
  { connector with upstreamStarttls := enabled }

end UpstreamConnector

/-- `policiesRx` is what the watch carries at first, if there is one. -/
structure ProxyBuilder (υ τ : Type) where
  listenAddr : SocketAddr
  listenTls : Option τ
  listenStarttls : Option τ
  connector : Option (UpstreamConnector υ)
  policies : List ThresholdPolicy
  policiesRx : Option (List ThresholdPolicy)
  limits : ConnectionLimits

namespace ProxyBuilder

variable {υ τ : Type}

def new (listenAddr : SocketAddr) : ProxyBuilder υ τ := ⟨listenAddr, none, none, none, [], none, .default⟩

variable (builder : ProxyBuilder υ τ)

def withListenTls (listenTls : τ) : ProxyBuilder υ τ := { builder with listenTls := some listenTls }

def withListenStarttls (listenStarttls : τ) : ProxyBuilder υ τ := { builder with listenStarttls := some listenStarttls }

def withConnector (connector : UpstreamConnector υ) : ProxyBuilder υ τ := { builder with connector := some connector }

def policiesReloadable (policies : List ThresholdPolicy) : ProxyBuilder υ τ :=
  { builder with policiesRx := some policies }

def withLimits (limits : ConnectionLimits) : ProxyBuilder υ τ := { builder with limits }

/-- The list `serve` hands to the first connection. -/
def inForce : List ThresholdPolicy := builder.policiesRx.getD builder.policies

theorem elim_withListenTls (settings : Option τ) (unset : builder.listenTls = none) :
    settings.elim builder builder.withListenTls = { builder with listenTls := settings } := by
  cases settings with
  | none => rw [Option.elim_none, ← unset]
  | some _ => rfl

theorem elim_withListenStarttls (settings : Option τ) (unset : builder.listenStarttls = none) :
    settings.elim builder builder.withListenStarttls = { builder with listenStarttls := settings } := by
  cases settings with
  | none => rw [Option.elim_none, ← unset]
  | some _ => rfl

/-- What `serve` runs with, or that it lacks a connector. -/
def serve : Except Error (UpstreamConnector υ × List ThresholdPolicy) :=
  match builder.connector with
  | none => .error .missingConnector
  | some connector => .ok (connector, builder.inForce)

end ProxyBuilder

section Build

variable {υ τ : Type} (parse : String → Option (List PolicyEntry)) (host : Host υ τ)

/-- TLS settings that are there have to be usable. -/
def usable {α β : Type} (build : α → Except String β) : Option α → Except Stop (Option β)
  | none => .ok none
  | some settings =>
      match build settings with
      | .error message => .error (.error (.tls message))
      | .ok built => .ok (some built)

def buildProxy (index : Nat) (proxy : ProxyConfig) : Except Stop (ProxyBuilder υ τ) := do
  let upstreamTls ← usable (fun tls : UpstreamTlsConfig => host.upstreamTls tls.serverName tls.caFile tls.clientCert)
    proxy.upstreamTls
  let upstreamStarttls := proxy.upstreamTls.any UpstreamTlsConfig.starttls
  let connector ← UpstreamConnector.withTargets proxy.upstreamAddrs proxy.upstreamStrategy
    (fromSecs proxy.upstreamFailureCooldownSecs) upstreamTls
  let listenTls ← usable host.listenTls proxy.listenTls
  let listenStarttls ← usable host.listenTls proxy.listenStarttls
  let policies ← (loadPolicies parse proxy.policyFile (host.policyFile index proxy.policyFile)
    (host.stateDb index)).mapError fun error => .error (.policy error)
  let limits : ConnectionLimits :=
    ⟨proxy.maxConnections, fromSecs proxy.ioTimeoutSecs, fromSecs proxy.shutdownTimeoutSecs⟩
  let builder := (((ProxyBuilder.new proxy.listenAddr).withConnector
    (connector.withStarttls upstreamStarttls)).policiesReloadable policies).withLimits limits
  let builder := listenTls.elim builder builder.withListenTls
  return listenStarttls.elim builder builder.withListenStarttls

/-- `run_with_config`, up to the point where it spawns its tasks. -/
def setUp (config : Config) : Except Stop (List (ProxyBuilder υ τ)) :=
  if config.metrics.any (fun addr => !host.metrics addr) = true then .error (.error .metrics)
  else if config.health.any (fun addr => !host.health addr) = true then .error (.error .health)
  else tryEach (buildProxy parse host) 0 config.proxy

/-- `run`, up to that point. -/
def boot (toml : String → Option ConfigTable) (path : String) (contents : Option String) :
    Except Stop (List (ProxyBuilder υ τ)) :=
  match Config.load toml path contents with
  | .error error => .error (.error (.config error))
  | .ok config => setUp parse host config

/-- The tasks that `run_with_config` then spawns. -/
def spawned (builders : List (ProxyBuilder υ τ)) : Supervisor :=
  .start (builders.map fun builder => builder.limits.maxConnections)

/-- Settings that are there are used, and none are made up. -/
inductive Kept {α β : Type} (build : α → Except String β) : Option α → Option β → Prop where
  | absent : Kept build none none
  | present {settings : α} {built : β} (ok : build settings = .ok built) : Kept build (some settings) (some built)

/-- An entry runs as its table says, with the defaults for what the table leaves open. -/
structure AsConfigured (index : Nat) (table : ProxyTable) (builder : ProxyBuilder υ τ) : Prop where
  listenAddr : builder.listenAddr = table.listenAddr
  listenTls : Kept host.listenTls table.listenTls builder.listenTls
  listenStarttls : Kept host.listenTls table.listenStarttls builder.listenStarttls
  upstream : ∃ connector, builder.serve = .ok (connector, builder.inForce) ∧
    Kept (fun tls : UpstreamTlsConfig => host.upstreamTls tls.serverName tls.caFile tls.clientCert) table.upstreamTls
      connector.upstreamTls ∧
    connector.upstreamStarttls = table.upstreamTls.any UpstreamTlsConfig.starttls ∧
    connector.pool.targets = table.upstreamAddrs.map (fun addr => ⟨addr, 0, none⟩) ∧
    connector.pool.strategy = table.upstreamStrategy.getD .roundRobin ∧
    connector.pool.cooldown = fromSecs (table.upstreamFailureCooldownSecs.getD 30)
  policies : loadPolicies parse table.policyFile (host.policyFile index table.policyFile) (host.stateDb index) =
    .ok builder.inForce
  limits : builder.limits = ⟨table.maxConnections.getD 1024, fromSecs (table.ioTimeoutSecs.getD 60),
    fromSecs (table.shutdownTimeoutSecs.getD 30)⟩

variable {parse host}

theorem usable_cases {α β : Type} (build : α → Except String β) (settings : Option α) :
    (∃ message, usable build settings = .error (.error (.tls message))) ∨
      ∃ built, usable build settings = .ok built ∧ Kept build settings built := by
  cases settings with
  | none => exact .inr ⟨none, rfl, .absent⟩
  | some settings =>
      cases made : build settings with
      | error message => exact .inl ⟨message, by simp only [usable, made]⟩
      | ok built => exact .inr ⟨some built, by simp only [usable, made], .present made⟩

/-- A table with an upstream address is read as it stands. -/
theorem deserialize_ok {table : ProxyTable} {proxy : ProxyConfig} (read : ProxyConfig.deserialize table = .ok proxy) :
    table.upstreamAddrs ≠ [] ∧ proxy = {
      listenAddr := table.listenAddr
      upstreamAddrs := table.upstreamAddrs
      upstreamStrategy := table.upstreamStrategy.getD .roundRobin
      upstreamFailureCooldownSecs := table.upstreamFailureCooldownSecs.getD 30
      upstreamTls := table.upstreamTls
      listenTls := table.listenTls
      listenStarttls := table.listenStarttls
      maxConnections := table.maxConnections.getD 1024
      ioTimeoutSecs := table.ioTimeoutSecs.getD 60
      shutdownTimeoutSecs := table.shutdownTimeoutSecs.getD 30
      policyFile := table.policyFile } := by
  simp only [ProxyConfig.deserialize, deserializeNonEmptyAddrs] at read
  split at read
  · cases read
  · rename_i addressed
    refine ⟨fun empty => addressed (by rw [empty]; rfl), ?_⟩
    cases read
    rfl

/-- What building an entry comes to, once it has an upstream address. -/
theorem buildProxy_cases (index : Nat) {table : ProxyTable} {proxy : ProxyConfig}
    (read : ProxyConfig.deserialize table = .ok proxy) :
    (∃ error, buildProxy parse host index proxy = .error (.error error)) ∨
      ∃ builder, buildProxy parse host index proxy = .ok builder ∧ AsConfigured parse host index table builder := by
  obtain ⟨nonempty, rfl⟩ := deserialize_ok read
  simp only [buildProxy, bind, Except.bind]
  rcases usable_cases (fun tls : UpstreamTlsConfig => host.upstreamTls tls.serverName tls.caFile tls.clientCert)
    table.upstreamTls with ⟨message, failed⟩ | ⟨upstreamTls, made, upstreamKept⟩
  · exact .inl ⟨_, by rw [failed]⟩
  · simp only [made, UpstreamConnector.withTargets, dif_pos nonempty]
    rcases usable_cases host.listenTls table.listenTls with ⟨message, failed⟩ | ⟨listenTls, made, listenKept⟩
    · exact .inl ⟨_, by rw [failed]⟩
    · simp only [made]
      rcases usable_cases host.listenTls table.listenStarttls with ⟨message, failed⟩ | ⟨starttls, made, starttlsKept⟩
      · exact .inl ⟨_, by rw [failed]⟩
      · simp only [made]
        cases loaded : loadPolicies parse table.policyFile (host.policyFile index table.policyFile)
            (host.stateDb index) with
        | error error => exact .inl ⟨_, rfl⟩
        | ok policies =>
            refine .inr ⟨_, rfl, ?_⟩
            rw [ProxyBuilder.elim_withListenTls _ listenTls rfl, ProxyBuilder.elim_withListenStarttls _ starttls rfl]
            exact ⟨rfl, listenKept, starttlsKept, ⟨_, rfl, upstreamKept, rfl, rfl, rfl, rfl⟩, loaded, rfl⟩

theorem load_ok {toml : String → Option ConfigTable} {path : String} {contents : Option String} {config : Config}
    (loaded : Config.load toml path contents = .ok config) :
    ∃ table, contents.bind toml = some table ∧ config.proxy ≠ [] ∧
      tryEach (fun _ => ProxyConfig.deserialize) 0 table.proxy = .ok config.proxy := by
  cases contents with
  | none => cases loaded
  | some raw =>
      cases parsed : toml raw with
      | none =>
          simp only [Config.load, parsed] at loaded
          cases loaded
      | some table =>
          simp only [Config.load, parsed, Config.deserialize, bind, Except.bind] at loaded
          cases read : tryEach (fun _ => ProxyConfig.deserialize) 0 table.proxy with
          | error message =>
              simp only [read] at loaded
              cases loaded
          | ok proxies =>
              simp only [read, pure, Except.pure] at loaded
              split at loaded
              · cases loaded
              · rename_i some_
                cases loaded
                exact ⟨table, parsed, fun empty => some_ (List.isEmpty_iff.mpr empty), read⟩

/-- Every entry that is built comes from a table of the file. -/
theorem table_of_entry {table : ConfigTable} {proxies : List ProxyConfig}
    (read : tryEach (fun _ => ProxyConfig.deserialize) 0 table.proxy = .ok proxies) {index : Nat} {proxy : ProxyConfig}
    (found : proxies[index]? = some proxy) :
    ∃ entry, table.proxy[index]? = some entry ∧ ProxyConfig.deserialize entry = .ok proxy := by
  obtain ⟨same, all⟩ := tryEach_ok read
  obtain ⟨inside, -⟩ := List.getElem?_eq_some_iff.mp found
  rw [same] at inside
  have there := List.getElem?_eq_getElem inside
  obtain ⟨result, present, ok⟩ := all index _ there
  rw [found] at present
  cases present
  exact ⟨_, there, ok⟩

/-- The entries of a file, once all of them are built. -/
theorem built_as_configured {table : ConfigTable} {proxies : List ProxyConfig} {builders : List (ProxyBuilder υ τ)}
    (read : tryEach (fun _ => ProxyConfig.deserialize) 0 table.proxy = .ok proxies)
    (built : tryEach (buildProxy parse host) 0 proxies = .ok builders) :
    builders.length = table.proxy.length ∧ ∀ (index : Nat) (entry : ProxyTable), table.proxy[index]? = some entry →
      ∃ builder, builders[index]? = some builder ∧ AsConfigured parse host index entry builder := by
  obtain ⟨count, all⟩ := tryEach_ok read
  obtain ⟨same, each⟩ := tryEach_ok built
  refine ⟨same.trans count, fun index entry found => ?_⟩
  obtain ⟨proxy, present, deserialized⟩ := all index entry found
  obtain ⟨builder, there, ok⟩ := each index proxy present
  rw [Nat.zero_add] at ok
  refine ⟨builder, there, ?_⟩
  rcases @buildProxy_cases υ τ parse host index entry proxy deserialized with ⟨error, failed⟩ | ⟨other, made, as⟩
  · rw [failed] at ok
    cases ok
  · rw [made] at ok
    cases ok
    exact as

section Spawned

variable {table : ConfigTable} {builders : List (ProxyBuilder υ τ)} (count : builders.length = table.proxy.length)
  (each : ∀ (index : Nat) (entry : ProxyTable), table.proxy[index]? = some entry →
    ∃ builder, builders[index]? = some builder ∧ AsConfigured parse host index entry builder)

include count each

theorem table_of_builder {index : Nat} {builder : ProxyBuilder υ τ} (found : builders[index]? = some builder) :
    ∃ entry, table.proxy[index]? = some entry ∧ AsConfigured parse host index entry builder := by
  obtain ⟨inside, -⟩ := List.getElem?_eq_some_iff.mp found
  rw [count] at inside
  have there := List.getElem?_eq_getElem inside
  obtain ⟨other, present, as⟩ := each index _ there
  rw [found] at present
  cases present
  exact ⟨_, there, as⟩

theorem spawned_as_configured :
    (spawned builders).entries = table.proxy.map (fun entry => .binding (entry.maxConnections.getD 1024)) := by
  simp only [spawned, Supervisor.start, List.map_map]
  refine List.ext_getElem (by simp only [List.length_map, count]) fun index inside within => ?_
  rw [List.length_map] at inside
  obtain ⟨entry, there, as⟩ := table_of_builder count each (List.getElem?_eq_getElem inside)
  obtain ⟨_, same⟩ := List.getElem?_eq_some_iff.mp there
  simp only [List.getElem_map, Function.comp_apply, same, as.limits]

theorem configured_of_built :
    Process.Configured ((table.proxy.map ProxyTable.policyFile).zip (builders.map ProxyBuilder.inForce)) := by
  rintro ⟨file, policies⟩ member policy listed
  obtain ⟨builder, among, rfl⟩ := List.mem_map.mp (List.of_mem_zip member).2
  obtain ⟨index, found⟩ := List.getElem?_of_mem among
  obtain ⟨entry, -, as⟩ := table_of_builder count each found
  exact Process.made_of_loaded as.policies policy listed

end Spawned

/-- A file with one entry, which serves over TLS and has the minute policy to go by. -/
def sampleTable : ProxyTable where
  listenAddr := .v4 ⟨[127, 0, 0, 1], rfl⟩ 3890
  upstreamAddrs := [.v4 ⟨[127, 0, 0, 1], rfl⟩ 389]
  upstreamStrategy := none
  upstreamFailureCooldownSecs := none
  upstreamTls := none
  listenTls := some ⟨"server.pem", "server.key", none⟩
  listenStarttls := none
  maxConnections := none
  ioTimeoutSecs := none
  shutdownTimeoutSecs := none
  policyFile := "ldap.toml"

def sampleToml (raw : String) : Option ConfigTable :=
  if raw = "sample" then some ⟨[sampleTable], none, none⟩ else none

/-- A host whose certificates are in order, and whose policy file reads `closed`. -/
def sampleHost : Host Unit Unit where
  upstreamTls := fun _ _ _ => .ok ()
  listenTls := fun _ => .ok ()
  metrics := fun _ => true
  health := fun _ => true
  policyFile := fun _ _ => some "closed"
  stateDb := fun _ _ => .absent

end Build

end AiProtect
