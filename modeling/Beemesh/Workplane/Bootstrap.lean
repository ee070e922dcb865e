import Beemesh.Lib.Text

/-!
# The bootstrap peers of a workload

A workload is given its bootstrap peers as one text, the addresses separated by commas, and hands
them to the workload DHT as a list. An entry that does not parse as the address of a peer is passed
over: nothing reports that a list is lost.

The text is not cut at its commas. It is expanded like a shell word, and then every one of its
characters becomes an entry.

## Main definitions

* `expandEnv`: a text, its variables replaced
* `splitCommaList`: the entries that the text becomes
* `bootstrapPeers`, `newNetwork`: the peers that the DHT starts from

## Main results

* `splitCommaList_eq_map`: the entries, where there is no variable
* `newNetwork_eq_ok_iff`: what the network of a workload is made of
* `bootstrapPeers_eq_filterMap`: entry by entry, in order
* `newDHT_of_newNetwork`: no text has bootstrap peers
* `bootstrapPeers_splitCommaList_eq_iff`: the lists that come through
-/

namespace Beemesh.Workplane

/-! ## Variables in a text -/

/-- `isShellSpecialVar`. -/
def isShellSpecialVar (c : Char) : Bool := "*#$@!?-0123456789".toList.contains c

/-- `isAlphaNum`. -/
def isAlphaNum (c : Char) : Bool :=
  c == '_' || ('0' ≤ c && c ≤ '9') || ('a' ≤ c && c ≤ 'z') || ('A' ≤ c && c ≤ 'Z')

/-- `getShellName`: the name behind a dollar sign, and the characters that it takes. -/
def getShellName : List Char → List Char × ℕ
  | [] => ([], 0)
  | c :: s =>
    if c = '{' then
      match s with
      | d :: '}' :: _ => if isShellSpecialVar d then ([d], 3) else closingBrace s
      | _ => closingBrace s
    else if isShellSpecialVar c then ([c], 1)
    else
      let name := (c :: s).takeWhile isAlphaNum
      (name, name.length)
where
  /-- Behind an opening brace. Bad syntax has no name, and its characters are taken. -/
  closingBrace (s : List Char) : List Char × ℕ :=
    match s.idxOf? '}' with
    | none => ([], 1)
    | some 0 => ([], 2)
    | some i => (s.take i, i + 2)

/-- `os.Expand`: `skip` characters belong to the name before. -/
def expandFrom (getenv : String → String) : ℕ → List Char → List Char
  | _, [] => []
  | skip + 1, _ :: s => expandFrom getenv skip s
  | 0, c :: s =>
    if c = '$' ∧ s ≠ [] then
      let (name, w) := getShellName s
      let value :=
        if name ≠ [] then (getenv (String.ofList name)).toList
        -- A dollar sign that no name follows is left as it is.
        else if w = 0 then [c] else []
      value ++ expandFrom getenv w s
    else c :: expandFrom getenv 0 s

/-- `os.ExpandEnv`. -/
def expandEnv (getenv : String → String) (s : String) : String :=
  String.ofList (expandFrom getenv 0 s.toList)

/-- `splitCommaList`: a string for each of the characters that the expanded text has. -/
def splitCommaList (getenv : String → String) (s : String) : List String :=
  if s = "" then [] else (expandEnv getenv s).toList.map String.singleton

theorem expandFrom_eq_self (getenv : String → String) {s : List Char} (h : '$' ∉ s) :
    expandFrom getenv 0 s = s := by
  induction s with
  | nil => rfl
  | cons c s ih =>
    rw [List.mem_cons, not_or] at h
    rw [expandFrom, if_neg fun hdollar => h.1 hdollar.1.symm, ih h.2]

/-- Where there is no variable, the entries are the characters of the text. -/
theorem splitCommaList_eq_map (getenv : String → String) {s : String} (h : '$' ∉ s.toList) :
    splitCommaList getenv s = s.toList.map String.singleton := by
  rw [splitCommaList, expandEnv, expandFrom_eq_self getenv h, String.toList_ofList]
  split_ifs with hempty
  · rw [hempty]
    rfl
  · rfl

/-! ## The network of a workload -/

/-- `Config`, as far as the network reads it. -/
structure Config where
  privateKey : List UInt8
  namespaceName : String
  workloadName : String
  bootstrapPeerStrings : List String

/-- What libp2p does for a workload. -/
structure Libp2p (PrivateKey Host AddrInfo DHT : Type) where
  unmarshalPrivateKey : List UInt8 → Except String PrivateKey
  /-- A host with TLS over TCP. -/
  newHost : PrivateKey → Except String Host
  /-- `peer.AddrInfoFromString`. The reason why a string is refused is not looked at. -/
  addrInfoFromString : String → Option AddrInfo
  /-- A DHT in server mode, with its bootstrap peers. -/
  newDHT : Host → List AddrInfo → Except String DHT
  bootstrap : DHT → Except String Unit

/-- `Network`. -/
structure Network (Host DHT : Type) where
  host : Host
  dht : DHT
  namespaceName : String
  workloadName : String

section

variable {PrivateKey Host AddrInfo DHT : Type} (L : Libp2p PrivateKey Host AddrInfo DHT)

/-- An entry of the list: white space around it is cut off, and nothing is no entry. -/
def appendPeer (boots : List AddrInfo) (raw : String) : List AddrInfo :=
  let raw := Text.trim raw
  if raw = "" then boots
  else
    match L.addrInfoFromString raw with
    | none => boots
    | some ai => boots ++ [ai]

/-- The loop of `NewNetwork`. -/
def bootstrapPeers (raws : List String) : List AddrInfo := raws.foldl (appendPeer L) []

/-- `NewNetwork`. -/
def newNetwork (cfg : Config) : Except String (Network Host DHT) :=
  match L.unmarshalPrivateKey cfg.privateKey with
  | .error e => .error s!"unmarshal private key: {e}"
  | .ok priv =>
    match L.newHost priv with
    | .error e => .error s!"libp2p host: {e}"
    | .ok h =>
      match L.newDHT h (bootstrapPeers L cfg.bootstrapPeerStrings) with
      | .error e => .error s!"workload dht: {e}"
      | .ok kdht =>
        match L.bootstrap kdht with
        | .error e => .error s!"bootstrap dht: {e}"
        | .ok () =>
          .ok
            { host := h
              dht := kdht
              namespaceName := cfg.namespaceName
              workloadName := cfg.workloadName }

/-- **The network of a workload**: its host is that of the key, and its DHT was started from the
bootstrap peers. -/
theorem newNetwork_eq_ok_iff {cfg : Config} {n : Network Host DHT} :
    newNetwork L cfg = .ok n ↔
      n.namespaceName = cfg.namespaceName ∧ n.workloadName = cfg.workloadName ∧
        (∃ priv, L.unmarshalPrivateKey cfg.privateKey = .ok priv ∧ L.newHost priv = .ok n.host) ∧
          L.newDHT n.host (bootstrapPeers L cfg.bootstrapPeerStrings) = .ok n.dht ∧
            L.bootstrap n.dht = .ok () := by
  obtain ⟨host, dht, namespaceName, workloadName⟩ := n
  rw [newNetwork]
  constructor
  · intro h
    -- Whatever is refused ends the attempt.
    cases hpriv : L.unmarshalPrivateKey cfg.privateKey with
    | error e =>
      rw [hpriv] at h
      exact nomatch h
    | ok priv =>
      simp only [hpriv] at h
      cases hhost : L.newHost priv with
      | error e =>
        rw [hhost] at h
        exact nomatch h
      | ok newHost =>
        simp only [hhost] at h
        cases hdht : L.newDHT newHost (bootstrapPeers L cfg.bootstrapPeerStrings) with
        | error e =>
          rw [hdht] at h
          exact nomatch h
        | ok kdht =>
          simp only [hdht] at h
          cases hboot : L.bootstrap kdht with
          | error e =>
            rw [hboot] at h
            exact nomatch h
          | ok u =>
            rw [hboot] at h
            cases h
            exact ⟨rfl, rfl, ⟨priv, rfl, hhost⟩, hdht, hboot⟩
  · rintro ⟨rfl, rfl, ⟨priv, hpriv, hhost⟩, hdht, hboot⟩
    rw [hpriv]
    simp only [hhost, hdht, hboot]

/-! ## The entries that come through -/

/-- The peer that an entry is read as. -/
def entryPeer (raw : String) : Option AddrInfo :=
  if Text.trim raw = "" then none else L.addrInfoFromString (Text.trim raw)

theorem appendPeer_eq (boots : List AddrInfo) (raw : String) :
    appendPeer L boots raw = boots ++ (entryPeer L raw).toList := by
  rw [appendPeer, entryPeer]
  split_ifs with hempty
  · rw [Option.toList_none, List.append_nil]
  · cases L.addrInfoFromString (Text.trim raw) with
    | none => exact (List.append_nil boots).symm
    | some ai => rfl

/-- The list is read entry by entry, in order. -/
theorem bootstrapPeers_eq_filterMap (raws : List String) :
    bootstrapPeers L raws = raws.filterMap (entryPeer L) := by
  -- The peers read so far stay in front.
  have hfold (boots : List AddrInfo) :
      raws.foldl (appendPeer L) boots = boots ++ raws.filterMap (entryPeer L) := by
    induction raws generalizing boots with
    | nil => exact (List.append_nil boots).symm
    | cons raw raws ih =>
      rw [List.foldl_cons, ih, appendPeer_eq, List.append_assoc, List.filterMap_cons]
      cases entryPeer L raw with
      | none => rfl
      | some ai => rfl
  exact hfold []

theorem length_of_mem_splitCommaList {getenv : String → String} {s raw : String}
    (h : raw ∈ splitCommaList getenv s) : raw.length = 1 := by
  rw [splitCommaList] at h
  split_ifs at h
  · exact absurd h List.not_mem_nil
  · obtain ⟨p, -, rfl⟩ := List.mem_map.mp h
    exact String.length_singleton

section

-- An address is a path: it has more than its first slash.
variable (hlong : ∀ raw ai, L.addrInfoFromString raw = some ai → 1 < raw.length)
include hlong

theorem entryPeer_eq (raw : String) : entryPeer L raw = L.addrInfoFromString (Text.trim raw) := by
  rw [entryPeer]
  split_ifs with hempty
  · symm
    rw [Option.eq_none_iff_forall_ne_some]
    intro ai hai
    have hlength := hlong _ ai hai
    rw [hempty, String.length_empty] at hlength
    omega
  · rfl

/-- One character is no address. -/
theorem entryPeer_of_mem_splitCommaList {getenv : String → String} {s raw : String}
    (h : raw ∈ splitCommaList getenv s) : entryPeer L raw = none := by
  rw [entryPeer_eq L hlong, Option.eq_none_iff_forall_ne_some]
  intro ai hai
  have hlength := hlong _ ai hai
  have htrim := Text.length_trim_le raw
  rw [length_of_mem_splitCommaList h] at htrim
  omega

/-- No text has bootstrap peers. -/
theorem bootstrapPeers_splitCommaList (getenv : String → String) (s : String) :
    bootstrapPeers L (splitCommaList getenv s) = [] := by
  rw [bootstrapPeers_eq_filterMap, List.filterMap_eq_nil_iff]
  intro raw hraw
  exact entryPeer_of_mem_splitCommaList L hlong hraw

/-- Whatever the text says, the DHT of the workload starts from no peer. -/
theorem newDHT_of_newNetwork {getenv : String → String} {s : String} {cfg : Config}
    {n : Network Host DHT} (hcfg : cfg.bootstrapPeerStrings = splitCommaList getenv s)
    (hn : newNetwork L cfg = .ok n) : L.newDHT n.host [] = .ok n.dht := by
  obtain ⟨-, -, -, hdht, -⟩ := (newNetwork_eq_ok_iff L).mp hn
  rwa [hcfg, bootstrapPeers_splitCommaList L hlong] at hdht

/-- **The lists that come through**: the workload starts from the peers of a list, joined by commas,
exactly if the list has none. -/
theorem bootstrapPeers_splitCommaList_eq_iff (getenv : String → String) (ss : List String) :
    bootstrapPeers L (splitCommaList getenv (",".intercalate ss)) =
        ss.filterMap (fun s => L.addrInfoFromString (Text.trim s)) ↔
      ∀ s ∈ ss, L.addrInfoFromString (Text.trim s) = none := by
  rw [bootstrapPeers_splitCommaList L hlong, eq_comm, List.filterMap_eq_nil_iff]

end

end

/-- An address with the identity of its peer. -/
def bootstrapAddress : String :=
  "/ip4/10.0.0.7/tcp/4001/p2p/QmYyQSo1c1Ym7orWxLYvCrM2EmxFTANf8wXmmE7DWjhx5N"

/-- A libp2p that knows one address. -/
def oneAddress : Libp2p Unit Unit String (List String) where
  unmarshalPrivateKey _ := .ok ()
  newHost _ := .ok ()
  addrInfoFromString raw := if raw = bootstrapAddress then some raw else none
  newDHT _ boots := .ok boots
  bootstrap _ := .ok ()

theorem oneAddress_long (raw ai : String) (h : oneAddress.addrInfoFromString raw = some ai) :
    1 < raw.length := by
  have hraw : raw = bootstrapAddress := by
    by_contra hne
    exact nomatch (if_neg hne : oneAddress.addrInfoFromString raw = none).symm.trans h
  rw [hraw]
  decide

/-- The list of one address, which has neither comma nor dollar sign, is lost. -/
theorem bootstrapPeers_splitCommaList_address :
    ¬ ∀ ss : List String, (∀ s ∈ ss, ',' ∉ s.toList ∧ '$' ∉ s.toList) →
      bootstrapPeers oneAddress (splitCommaList (fun _ => "") (",".intercalate ss)) =
        ss.filterMap (fun s => oneAddress.addrInfoFromString (Text.trim s)) := by
  intro hclaim
  have hpeers := hclaim [bootstrapAddress] (by decide)
  rw [bootstrapPeers_splitCommaList oneAddress oneAddress_long] at hpeers
  exact absurd hpeers (by decide)

theorem bootstrapPeers_splitCommaList_eq_iff_address :
    bootstrapPeers oneAddress (splitCommaList (fun _ => "") (",".intercalate [bootstrapAddress])) =
        [bootstrapAddress].filterMap (fun s => oneAddress.addrInfoFromString (Text.trim s)) ↔
      ∀ s ∈ [bootstrapAddress], oneAddress.addrInfoFromString (Text.trim s) = none :=
  bootstrapPeers_splitCommaList_eq_iff oneAddress oneAddress_long (fun _ => "") [bootstrapAddress]

end Beemesh.Workplane
