import DappyCore.ProxyProcess

/-!
Endpoints of TCP adapters: where `host:port` is put together, and where it is taken apart.
-/

namespace DappyCore.Endpoints

open Lib Json Transport ChildSession ProxyProcess

inductive SpawnTransport | stdio | tcp | builtin
  deriving DecidableEq

structure AdapterSpawn where
  transport : SpawnTransport
  command : String
  args : List String
  deriving DecidableEq

/-- How to reach an upstream server process or socket. -/
inductive SpawnSpec
  | stdio (command : String) (args : List String)
  | tcp (host : String) (port : UInt16)
  | builtin (id : String)
  deriving DecidableEq

/-- `format!("{host}:{port}")`. -/
def endpoint (host : String) (port : UInt16) : String := host ++ ":" ++ toString port.toNat

/-- `str::parse::<u16>`. -/
def parsePort (text : List Char) : Option UInt16 :=
  ((parseUsize text).filter (· < 65536)).map UInt16.ofNat

/-- `split_once(':')`. -/
def splitColon (text : List Char) : Option (List Char × List Char) :=
  match text.dropWhile (· ≠ ':') with
  | [] => none
  | _ :: after => some (text.takeWhile (· ≠ ':'), after)

def spawnSpecToAdapter : SpawnSpec → AdapterSpawn
  | .stdio command args => ⟨.stdio, command, args⟩
  | .tcp host port => ⟨.tcp, endpoint host port, []⟩
  | .builtin id => ⟨.builtin, id, []⟩

def adapterToSpawnSpec (adapter : AdapterSpawn) : SpawnSpec :=
  match adapter.transport with
  | .stdio => .stdio adapter.command adapter.args
  | .tcp =>
    match (splitColon adapter.command.toList).bind fun (host, port) =>
        (parsePort port).map fun port => (String.ofList host, port) with
    | some (host, port) => .tcp host port
    | none => .tcp adapter.command 0
  | .builtin => .builtin adapter.command

/-- Where `Backend::spawn_with_options` connects to with a TCP adapter. -/
def backendEndpoint (adapter : AdapterSpawn) : Except String (String × UInt16) :=
  match (rsplitColon adapter.command.toList).bind fun (host, port) =>
      (parsePort port).map fun port => (String.ofList host, port) with
  | some read => .ok read
  | none => .error "invalid tcp adapter command host:port"

/-! ### Taking a text apart -/

section Split

variable {a b : List Char}

lemma splitColon_of_notMem (h : ':' ∉ a) : splitColon (a ++ ':' :: b) = some (a, b) := by
  have hpos : ∀ c ∈ a, (decide (c ≠ ':')) = true := fun c hc => by
    simpa using fun e : c = ':' => h (e ▸ hc)
  unfold splitColon
  rw [List.dropWhile_append_of_pos hpos, List.takeWhile_append_of_pos hpos]
  simp

/-- It is split at the first colon, so the rest has the others. -/
lemma splitColon_of_mem (h : ':' ∈ a) :
    ∃ before after, splitColon (a ++ ':' :: b) = some (before, after) ∧ ':' ∈ after := by
  obtain ⟨x, y, rfl, hx⟩ := List.eq_append_cons_of_mem h
  refine ⟨x, y ++ ':' :: b, ?_, by simp⟩
  rw [List.append_assoc, List.cons_append, splitColon_of_notMem hx]

/-- It is split at the last colon. -/
lemma rsplitColon_append (h : ':' ∉ b) : rsplitColon (a ++ ':' :: b) = some (a, b) := by
  have hpos : ∀ c ∈ b.reverse, (decide (c ≠ ':')) = true := fun c hc => by
    simpa using fun e : c = ':' => h (e ▸ List.mem_reverse.mp hc)
  have htake : (a ++ ':' :: b).rtakeWhile (· ≠ ':') = b := by
    unfold List.rtakeWhile
    rw [List.reverse_append, List.reverse_cons, List.append_assoc,
      List.takeWhile_append_of_pos hpos]
    simp
  have hdrop : (a ++ ':' :: b).rdropWhile (· ≠ ':') = a ++ [':'] := by
    unfold List.rdropWhile
    rw [List.reverse_append, List.reverse_cons, List.append_assoc,
      List.dropWhile_append_of_pos hpos]
    simp
  have hlen : ¬ b.length = (a ++ ':' :: b).length := by
    rw [List.length_append, List.length_cons]
    omega
  rw [rsplitColon, htake, hdrop, if_neg hlen, List.dropLast_concat]

lemma parsePort_of_mem (h : ':' ∈ a) : parsePort a = none := by
  have hmem : ':' ∈ digitsOf a := by
    unfold digitsOf
    split
    · exact (List.mem_cons.mp h).resolve_left (by decide)
    · exact h
  have hall : ¬ (digitsOf a).all Char.isDigit := fun hd =>
    absurd (List.all_eq_true.mp hd ':' hmem) (by decide)
  unfold parsePort parseUsize
  rw [if_pos (.inr hall)]
  rfl

end Split

variable {host : String} {port : UInt16}

lemma filter_parseUsize (port : UInt16) :
    (parseUsize (Nat.toDigits 10 port.toNat)).filter (· < 65536) = some port.toNat := by
  have hlt : port.toNat < 65536 := port.toNat_lt
  have hmax : port.toNat ≤ usizeMax := le_trans hlt.le (by decide)
  rw [parseUsize_toDigits hmax, Option.filter_some, if_pos (decide_eq_true hlt)]

lemma parsePort_toDigits (port : UInt16) : parsePort (Nat.toDigits 10 port.toNat) = some port := by
  rw [parsePort, filter_parseUsize, Option.map_some, UInt16.ofNat_toNat]

lemma notMem_toDigits (n : ℕ) : ':' ∉ Nat.toDigits 10 n := fun h =>
  absurd (isDigit_of_mem h) (by decide)

lemma toList_endpoint (host : String) (port : UInt16) :
    (endpoint host port).toList = host.toList ++ ':' :: Nat.toDigits 10 port.toNat := by
  simp [endpoint]

lemma rsplitColon_endpoint (host : String) (port : UInt16) :
    rsplitColon (endpoint host port).toList =
      some (host.toList, Nat.toDigits 10 port.toNat) := by
  rw [toList_endpoint, rsplitColon_append (notMem_toDigits _)]

/-! ### Readers -/

/-- The readers that split at the last colon take every endpoint apart. -/
lemma backendEndpoint_endpoint (host : String) (port : UInt16) (args : List String) :
    backendEndpoint ⟨.tcp, endpoint host port, args⟩ = .ok (host, port) := by
  simp [backendEndpoint, rsplitColon_endpoint, parsePort_toDigits]

lemma parseHostPort_endpoint (host : String) (port : UInt16) :
    parseHostPort (endpoint host port) = .ok (host, port.toNat) := by
  simp [parseHostPort, rsplitColon_endpoint, filter_parseUsize]

/-- The one that splits at the first colon does so where the host has none. -/
theorem adapterToSpawnSpec_endpoint (host : String) (port : UInt16) (args : List String) :
    adapterToSpawnSpec ⟨.tcp, endpoint host port, args⟩ =
      if ':' ∈ host.toList then .tcp (endpoint host port) 0 else .tcp host port := by
  simp only [adapterToSpawnSpec, toList_endpoint]
  split_ifs with h
  · obtain ⟨before, after, hsplit, hmem⟩ := splitColon_of_mem (b := Nat.toDigits 10 port.toNat) h
    rw [hsplit, Option.bind_some, parsePort_of_mem hmem]
    rfl
  · rw [splitColon_of_notMem h, Option.bind_some, parsePort_toDigits]
    simp

lemma endpoint_ne (host : String) (port : UInt16) : endpoint host port ≠ host := by
  intro h
  have hlen := congrArg (fun s : String => s.toList.length) h
  simp only [toList_endpoint, List.length_append, List.length_cons] at hlen
  omega

/-- Every printer writes the endpoint, and every reader of it comes to the host and the port. -/
structure Survives (host : String) (port : UInt16) : Prop where
  printed : (spawnSpecToAdapter (.tcp host port)).command = endpoint host port
  child : ∀ toText supervisor plan, plan.backend = .tcp host port.toNat →
    (spawnCommand toText supervisor plan).value "--adapter-tcp" = some (endpoint host port)
  backend : ∀ args, backendEndpoint ⟨.tcp, endpoint host port, args⟩ = .ok (host, port)
  childSession : parseHostPort (endpoint host port) = .ok (host, port.toNat)
  spawnSpec : ∀ args, adapterToSpawnSpec ⟨.tcp, endpoint host port, args⟩ = .tcp host port
  roundTrip : ∀ args, (spawnSpecToAdapter
    (adapterToSpawnSpec ⟨.tcp, endpoint host port, args⟩)).command = endpoint host port

lemma value_adapterTcp {toText : Value → String} {supervisor : ChildProcessSupervisor}
    {plan : ChildSpawnPlan} (h : plan.backend = .tcp host port.toNat) :
    (spawnCommand toText supervisor plan).value "--adapter-tcp" = some (endpoint host port) := by
  unfold spawnCommand
  rw [h]
  cases supervisor.childProfileFile <;> by_cases hd : 0 < plan.childDepth <;>
    simp [CommandLine.value, List.lookup_cons, hd, endpoint]

/-- **An endpoint survives every conversion** exactly where its host has no colon. -/
theorem survives_iff (host : String) (port : UInt16) : Survives host port ↔ ':' ∉ host.toList := by
  constructor
  · intro h hmem
    have hspec := h.spawnSpec []
    rw [adapterToSpawnSpec_endpoint, if_pos hmem] at hspec
    exact endpoint_ne host port (SpawnSpec.tcp.inj hspec).1
  · intro h
    refine ⟨rfl, fun _ _ _ => value_adapterTcp, backendEndpoint_endpoint host port,
      parseHostPort_endpoint host port, fun args => ?_, fun args => ?_⟩
    · rw [adapterToSpawnSpec_endpoint, if_neg h]
    · rw [adapterToSpawnSpec_endpoint, if_neg h]
      rfl

/-- The host becomes the whole endpoint, and the port 0. -/
theorem ipv6_endpoint_lost :
    ¬ Survives "::1" 4711 ∧
      spawnSpecToAdapter (adapterToSpawnSpec ⟨.tcp, endpoint "::1" 4711, []⟩) =
        ⟨.tcp, "::1:4711:0", []⟩ := by
  refine ⟨fun h => ?_, by decide⟩
  have hspec := h.spawnSpec []
  revert hspec
  decide

end DappyCore.Endpoints
