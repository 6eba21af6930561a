import RbaIdp.AddressText

/-!
# Who chooses the client's address

Behind a trusted proxy the client's address is the right-most hop of
`X-Forwarded-For` that is not a trusted proxy.  What our proxies append decides it as
soon as one of the appended hops is an untrusted address.  A hop that is no address
is dropped before the scan, so where the appended hops are trusted addresses and such
hops only, the scan goes on into the client's part (`forwarded_iff`).
-/

namespace RbaIdp

variable {env : Env}

/-! ## The header -/

/-- The header `p, v1, …, vn`. -/
def forwardedFor (p : String) (vs : List String) : String := ", ".intercalate (p :: vs)

/-- The request with a header: the client's part, and what our proxies appended. -/
def HttpRequest.forwarding (request : HttpRequest) (p : String) (vs : List String) :
    HttpRequest :=
  { request with xForwardedFor := some (forwardedFor p vs) }

/-- The pieces of the header are those of the client's part and the appended hops. -/
theorem split_forwardedFor {vs : List String} (hvs : ∀ v ∈ vs, ',' ∉ v.toList) :
    ∀ p, split (forwardedFor p vs) ',' = split p ',' ++ vs.map fun v => " " ++ v := by
  induction vs with
  | nil =>
      intro p
      simp [forwardedFor]
  | cons v rest ih =>
      intro p
      have hchars : (forwardedFor p (v :: rest)).toList =
          p.toList ++ ',' :: (forwardedFor (" " ++ v) rest).toList := by
        rw [forwardedFor, String.intercalate_cons_cons, forwardedFor,
          String.intercalate_cons_append]
        simp
      have hspace : ',' ∉ (" " ++ v).toList := by
        simpa using hvs v (List.mem_cons_self ..)
      rw [split_append hchars, ih (fun w hw => hvs w (List.mem_cons_of_mem _ hw)),
        split_of_not_mem hspace, List.map_cons, List.singleton_append]

/-- The space after a comma is nothing to the parser. -/
theorem parseIp_space (v : String) : parseIp (" " ++ v) = parseIp v := by
  have hstrip : strip (" " ++ v) = strip v := by
    simp [strip, isSpace]
  rw [parseIp, parseIp, hstrip]

/-! ## Hops -/

/-- A hop that parses as the address of a trusted proxy. -/
def TrustedHop (env : Env) (v : String) : Prop := ∃ a, parseIp v = some a ∧ trusted env a = true

/-- A hop that parses as another address. -/
def UntrustedHop (env : Env) (v : String) : Prop := ∃ a, parseIp v = some a ∧ trusted env a = false

instance (v : String) : Decidable (TrustedHop env v) :=
  decidable_of_iff ((parseIp v).any (trusted env) = true) (Option.any_eq_true _ _)

instance (v : String) : Decidable (UntrustedHop env v) :=
  decidable_of_iff ((parseIp v).any (fun a => !trusted env a) = true) (by
    rw [Option.any_eq_true, UntrustedHop]
    simp)

/-- Every address a hop can name is a trusted proxy's. -/
def TrustsAll (env : Env) : Prop := ∀ v : String, ',' ∉ v.toList → ¬ UntrustedHop env v

/-- The right-most hop of a list that is an untrusted address. -/
def lastUntrusted (env : Env) (hops : List String) : Option IpAddress :=
  (hops.filterMap parseIp).reverse.find? fun hop => !trusted env hop

theorem lastUntrusted_append (front back : List String) :
    lastUntrusted env (front ++ back) = (lastUntrusted env back).or (lastUntrusted env front) := by
  rw [lastUntrusted, List.filterMap_append, List.reverse_append, List.find?_append]
  rfl

theorem lastUntrusted_eq_none {hops : List String} :
    lastUntrusted env hops = none ↔ ∀ v ∈ hops, ¬ UntrustedHop env v := by
  rw [lastUntrusted, List.find?_eq_none]
  constructor
  · rintro h v hv ⟨a, ha, huntrusted⟩
    have hnot := h a (List.mem_reverse.mpr (List.mem_filterMap.mpr ⟨v, hv, ha⟩))
    rw [huntrusted] at hnot
    exact hnot rfl
  · intro h a ha huntrusted
    obtain ⟨v, hv, hparse⟩ := List.mem_filterMap.mp (List.mem_reverse.mp ha)
    exact h v hv ⟨a, hparse, by simpa using huntrusted⟩

theorem lastUntrusted_space (vs : List String) :
    lastUntrusted env (vs.map fun v => " " ++ v) = lastUntrusted env vs := by
  simp only [lastUntrusted, List.filterMap_map, Function.comp_def, parseIp_space]

/-! ## The client's address -/

/-- The direct peer, or what stands for an absent one. -/
def HttpRequest.peer (request : HttpRequest) : String :=
  (nonEmpty request.clientHost).getD "0.0.0.0"

/-- The address of a request behind a trusted proxy. -/
theorem clientIp_forwarding (hheader : env.settings.clientIpHeader = .X_FORWARDED_FOR)
    {request : HttpRequest} {peerIp : IpAddress} (hpeer : parseIp request.peer = some peerIp)
    (htrusted : trusted env peerIp = true) {vs : List String} (hvs : ∀ v ∈ vs, ',' ∉ v.toList)
    (p : String) :
    clientIp env (request.forwarding p vs) =
      ipText (((lastUntrusted env vs).or (lastUntrusted env (split p ','))).getD peerIp) := by
  have hhops : lastUntrusted env (split (forwardedFor p vs) ',') =
      (lastUntrusted env vs).or (lastUntrusted env (split p ',')) := by
    rw [split_forwardedFor hvs, lastUntrusted_append, lastUntrusted_space]
  rw [← hhops, clientIp]
  dsimp only [HttpRequest.forwarding]
  rw [HttpRequest.peer] at hpeer
  rw [hpeer]
  dsimp only
  rw [htrusted, hheader]
  rfl

/-- The client's part of the header does not matter. -/
def SuffixDecides (env : Env) (request : HttpRequest) (vs : List String) : Prop :=
  ∀ p p', clientIp env (request.forwarding p vs) = clientIp env (request.forwarding p' vs)

/-- A peer that is no trusted proxy. -/
def HttpRequest.Direct (env : Env) (request : HttpRequest) : Prop :=
  ∀ a, parseIp request.peer = some a → trusted env a = false

/-- A direct client's address is its own, whatever its headers say. -/
theorem clientIp_direct {request : HttpRequest} (h : request.Direct env) :
    clientIp env request = ((parseIp request.peer).map ipText).getD request.peer := by
  rw [HttpRequest.Direct, HttpRequest.peer] at h
  rw [clientIp, HttpRequest.peer]
  cases hpeer : parseIp ((nonEmpty request.clientHost).getD "0.0.0.0") with
  | none => rfl
  | some a => simp [h a hpeer]

/-- **Behind a trusted proxy the client cannot choose its address, where an appended
hop is an untrusted address.**  Otherwise it can, unless every appended hop is a
trusted address or no address is untrusted.  A direct client's headers never matter. -/
theorem forwarded_iff (hheader : env.settings.clientIpHeader = .X_FORWARDED_FOR)
    (request : HttpRequest) :
    (∀ peerIp, parseIp request.peer = some peerIp → trusted env peerIp = true →
      ∀ vs : List String, (∀ v ∈ vs, ',' ∉ v.toList) →
        ((¬ (∀ v ∈ vs, TrustedHop env v) → SuffixDecides env request vs) ↔
          (∃ v ∈ vs, UntrustedHop env v) ∨ (∀ v ∈ vs, TrustedHop env v) ∨ TrustsAll env)) ∧
    (request.Direct env → ∀ cloudfront forwarded : Option String,
      clientIp env { request with
        cloudfrontViewerAddress := cloudfront
        xForwardedFor := forwarded } = clientIp env request) := by
  constructor
  · intro peerIp hpeer htrusted vs hvs
    have haddress := clientIp_forwarding hheader hpeer htrusted hvs
    constructor
    · intro hdecides
      by_cases huntrusted : ∃ v ∈ vs, UntrustedHop env v
      · exact Or.inl huntrusted
      by_cases hall : ∀ v ∈ vs, TrustedHop env v
      · exact Or.inr (Or.inl hall)
      refine Or.inr (Or.inr fun token hcomma => ?_)
      rintro ⟨a, ha, hother⟩
      -- the client names this address, or none
      have hnone : lastUntrusted env vs = none :=
        lastUntrusted_eq_none.mpr fun v hv hu => huntrusted ⟨v, hv, hu⟩
      have htoken : lastUntrusted env (split token ',') = some a := by
        simp [lastUntrusted, split_of_not_mem hcomma, ha, hother]
      have hempty : lastUntrusted env (split "" ',') = none := by
        rfl
      have hsame := hdecides hall token ""
      rw [haddress, haddress, hnone, htoken, hempty] at hsame
      have heq : a = peerIp :=
        (ipText_inj (valid_of_parseIp ha) (valid_of_parseIp hpeer)).mp hsame
      rw [heq, htrusted] at hother
      cases hother
    · intro hcondition hall p p'
      rw [haddress, haddress]
      rcases hcondition with huntrusted | hall' | htrusts
      · obtain ⟨a, ha⟩ : ∃ a, lastUntrusted env vs = some a := by
          rw [← Option.isSome_iff_exists, Option.isSome_iff_ne_none]
          intro hnone
          obtain ⟨v, hv, hu⟩ := huntrusted
          exact lastUntrusted_eq_none.mp hnone v hv hu
        rw [ha, Option.some_or, Option.some_or]
      · exact absurd hall' hall
      · have hnone : ∀ q, lastUntrusted env (split q ',') = none := by
          intro q
          exact lastUntrusted_eq_none.mpr fun v hv => htrusts v (not_mem_of_mem_split hv)
        rw [hnone, hnone]
  · intro hdirect cloudfront forwarded
    rw [clientIp_direct hdirect]
    exact clientIp_direct (fun a ha => hdirect a ha)

/-! The proxies of a deployment are 10.0.0.0/20, and its balancer is 10.0.3.17. -/

def Env.balanced : Env :=
  { Env.standIn with
    settings := { Settings.default with
      trustedProxies := [.v4 (ipv4 10 0 0 0) 20]
      clientIpHeader := .X_FORWARDED_FOR } }

def throughBalancer : HttpRequest := ⟨some "10.0.3.17", none, none, "cookie", 0⟩

theorem parseIp_balancer : parseIp throughBalancer.peer = some (.v4 (ipv4 10 0 3 17)) := by
  decide +kernel

/-- A well-formed hop decides, and a client that comes directly has no say either. -/
theorem forwarded_wellFormed :
    SuffixDecides .balanced throughBalancer ["192.0.2.50", "10.0.3.4"] ∧
      clientIp .balanced (fromAbroad.forwarding "203.0.113.10" []) =
        clientIp .balanced fromAbroad := by
  have hdirect : fromAbroad.Direct .balanced := by
    intro a ha
    have hparse : parseIp fromAbroad.peer = some (.v4 (ipv4 192 0 2 50)) := by decide +kernel
    obtain rfl := Option.some.inj (hparse.symm.trans ha)
    decide
  exact ⟨((forwarded_iff rfl throughBalancer).1 _ parseIp_balancer (by decide)
      ["192.0.2.50", "10.0.3.4"] (by decide)).mpr (Or.inl (by decide +kernel)) (by decide +kernel),
    (forwarded_iff rfl fromAbroad).2 hdirect none (some (forwardedFor "203.0.113.10" []))⟩

/-- Behind a hop that carries its port the client names the address it likes. -/
theorem not_forwarded_hop_with_port :
    ¬ ∀ (env : Env) (request : HttpRequest) (peerIp : IpAddress) (vs : List String),
      env.settings.clientIpHeader = .X_FORWARDED_FOR → parseIp request.peer = some peerIp →
      trusted env peerIp = true → vs ≠ [] → (∀ v ∈ vs, ',' ∉ v.toList) →
      ¬ (∀ v ∈ vs, TrustedHop env v) → SuffixDecides env request vs := by
  intro h
  have hsame := h .balanced throughBalancer _ ["192.0.2.50:46532"] rfl parseIp_balancer
    (by decide) (by decide) (by decide) (by decide +kernel) "203.0.113.10" "198.51.100.7"
  revert hsame
  decide +kernel

end RbaIdp
