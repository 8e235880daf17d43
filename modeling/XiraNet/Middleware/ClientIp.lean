import XiraNet.Http
import XiraNet.Lib.IpParse

/-!
# Client addresses

`client_ip` of `middleware/rate_limit.rs`: the address that a request counts for. Behind trusted
proxies it is found in `X-Forwarded-For`, whose lines together are the hops that the request has
taken. The function reads the first line.

* `clientHop_append`: what stands left of the client's hop is not read.
* `reportsClient_iff`: when the function gives the client's hop.
* `reportsClient_fails`: a line that the client sends itself decides.
-/

namespace XiraNet

namespace RateLimit

/-- `CidrEntry`. The prefix is one of the network. -/
structure CidrEntry where
  network : IpAddr
  prefixLen : ℕ
  prefixLen_le : prefixLen ≤ network.bits

namespace CidrEntry

/-- `parse`. -/
def parse (s : String) : Option CidrEntry :=
  let trimmed := (Text.trim s).toList
  if trimmed = [] then none
  else if '/' ∈ trimmed then
    match IpAddr.parseChars (trimmed.takeWhile (· ≠ '/')),
        Text.parseUnsigned 255 (trimmed.dropWhile (· ≠ '/')).tail with
    | some network, some prefixLen =>
        if h : prefixLen ≤ network.bits then some ⟨network, prefixLen, h⟩ else none
    | _, _ => none
  else (IpAddr.parseChars trimmed).map fun network => ⟨network, network.bits, le_rfl⟩

/-- Two addresses with the same first bits. -/
def samePrefix (width prefixLen : ℕ) (net addr : BitVec width) : Bool :=
  if prefixLen = 0 then true
  else
    let mask := BitVec.allOnes width <<< (width - prefixLen)
    net &&& mask = addr &&& mask

/-- `contains`. -/
def contains (entry : CidrEntry) (ip : IpAddr) : Bool :=
  match entry.network, ip with
  | .v4 .., .v4 .. =>
      samePrefix 32 entry.prefixLen (.ofNat 32 entry.network.toNat) (.ofNat 32 ip.toNat)
  | .v6 .., .v6 .. =>
      samePrefix 128 entry.prefixLen (.ofNat 128 entry.network.toNat) (.ofNat 128 ip.toNat)
  | _, _ => false

end CidrEntry

/-- `parse_proxies`. -/
def parseProxies (list : List String) : List CidrEntry := list.filterMap CidrEntry.parse

/-- The fields of `Inner` that `client_ip` reads. -/
structure Inner where
  trustXff : Bool
  trustedProxies : List CidrEntry

namespace Inner

variable (inner : Inner)

/-- An address in one of the trusted networks. -/
def trusts (ip : IpAddr) : Bool := inner.trustedProxies.any fun entry => entry.contains ip

/-- The loop over the hops, from the right, to the address that it returns. -/
def walkHops (peerIp : IpAddr) : List String → Option String
  | [] => none
  | hop :: hops =>
      if hop = "" then walkHops peerIp hops
      else
        match IpAddr.parse hop with
        | some ip => if inner.trusts ip then walkHops peerIp hops else some ip.text
        | none => some peerIp.text

/-- The first hop of a header. -/
def firstHop (hops : List String) : Option String :=
  hops.head?.bind fun first =>
    let candidate := Text.trim first
    if candidate = "" then none else some candidate

/-- `client_ip`. -/
def clientIp (req : HttpRequest) : String :=
  if inner.trustedProxies ≠ [] then
    match req.peerAddr with
    | none => "unknown"
    | some peerIp =>
        if inner.trusts peerIp = false then peerIp.text
        else
          match req.header "x-forwarded-for" with
          | none => peerIp.text
          | some s =>
              let hops := (Text.split s ',').map Text.trim
              match inner.walkHops peerIp hops.reverse with
              | some ip => ip
              | none => (firstHop hops).getD peerIp.text
  else
    match if inner.trustXff then
        (req.header "x-forwarded-for").bind fun s => firstHop (Text.split s ',') else none with
    | some candidate => candidate
    | none => (req.peerAddr.map IpAddr.text).getD "unknown"

end Inner

/-- The address of a hop. -/
def hopAddr (hop : HeaderValue) : Option IpAddr := (HeaderValue.toStr hop).bind IpAddr.parse

/-- The hops of all lines of `X-Forwarded-For`. -/
def chain (req : HttpRequest) : List HeaderValue :=
  (HeaderMap.values req.headers "x-forwarded-for").flatMap HeaderValue.elements

namespace Inner

variable (inner : Inner)

/-- A hop that says nothing, or a trusted one. -/
def passesOver (hop : HeaderValue) : Bool := hop = [] || (hopAddr hop).any inner.trusts

/-- The hop of the client: the rightmost one that is not empty and not a trusted address. -/
def clientHop (hops : List HeaderValue) : Option HeaderValue :=
  hops.reverse.find? fun hop => !inner.passesOver hop

/-- The address is the one of the peer, if it is not trusted, and else the one of the hop of the
client, or the one of the peer where that is no address. -/
structure ReportsClient (req : HttpRequest) (peer : IpAddr) : Prop where
  untrusted : inner.trusts peer = false → inner.clientIp req = peer.text
  trusted : inner.trusts peer = true → ∀ hop ∈ inner.clientHop (chain req),
    inner.clientIp req = ((hopAddr hop).getD peer).text

/-- The first line of `X-Forwarded-For` tells the same as all of them. -/
def FirstLineTells (req : HttpRequest) (peer : IpAddr) : Prop :=
  inner.trusts peer = true → ∀ hop ∈ inner.clientHop (chain req),
    match hopAddr hop with
    | some ip =>
        -- The line is text, and the hop of the client in it is the same address.
        ∃ line ∈ HeaderMap.get req.headers "x-forwarded-for", (HeaderValue.toStr line).isSome ∧
          ∃ hop' ∈ inner.clientHop (HeaderValue.elements line), hopAddr hop' = some ip
    | none =>
        -- The line is not text, or it leads to the peer as well.
        ∀ line ∈ HeaderMap.get req.headers "x-forwarded-for", (HeaderValue.toStr line).isSome →
          (∀ hop' ∈ inner.clientHop (HeaderValue.elements line), hopAddr hop' = none) ∧
            (inner.clientHop (HeaderValue.elements line) = none →
              ∀ first ∈ (HeaderValue.elements line).head?,
                first = [] ∨ HeaderValue.toStr first = some peer.text)

/-- What stands left of the hop of the client is not read. -/
theorem clientHop_append {hops hops' : List HeaderValue} {hop : HeaderValue}
    (h : inner.clientHop hops = some hop) : inner.clientHop (hops' ++ hops) = some hop := by
  unfold clientHop at h ⊢
  rw [List.reverse_append, List.find?_append, h, Option.some_or]

end Inner

/-- Bytes as text. -/
def asciiText (bytes : List UInt8) : String :=
  String.ofList (bytes.map fun b => Char.ofNat b.toNat)

/-- A byte that may stand in text. -/
def isTextByte (b : UInt8) : Bool := b = 9 || (32 ≤ b && b < 127)

/-- When a value is text, and which. -/
theorem toStr_eq_some_iff {value : HeaderValue} {s : String} :
    HeaderValue.toStr value = some s ↔
      (∀ b ∈ value, isTextByte b = true) ∧ asciiText value = s := by
  rw [HeaderValue.toStr, Option.ite_none_right_eq_some, List.all_eq_true, Option.some.injEq]
  rfl

/-- The characters of bytes: which one is the comma, and which ones of text are white space. -/
theorem ofNat_of_byte (b : UInt8) :
    (Char.ofNat b.toNat = ',' ↔ b = 0x2c) ∧
      (isTextByte b = true → Text.isWhitespace (Char.ofNat b.toNat) = isOptionalSpace b) := by
  have hall : ∀ n : Fin 256, let b := UInt8.ofNat n; (Char.ofNat b.toNat = ',' ↔ b = 0x2c) ∧
      (isTextByte b = true → Text.isWhitespace (Char.ofNat b.toNat) = isOptionalSpace b) := by
    decide +kernel
  have hbyte := hall ⟨b.toNat, b.toNat_lt⟩
  rwa [UInt8.ofNat_toNat] at hbyte

/-- Splitting a list whose elements are renamed. -/
theorem splitOn_map {α β : Type} [DecidableEq α] [DecidableEq β] {f : α → β} {a : α} {b : β}
    (hf : ∀ x, f x = b ↔ x = a) (l : List α) :
    (l.map f).splitOn b = (l.splitOn a).map (List.map f) := by
  induction l with
  | nil => simp [List.splitOn_nil]
  | cons x l ih =>
      rw [List.map_cons, List.splitOn_cons_eq_if_modifyHead, List.splitOn_cons_eq_if_modifyHead, ih]
      by_cases hx : x = a
      · simp [hx, (hf a).mpr rfl]
      · have hne : ¬ f x = b := fun h => hx ((hf x).mp h)
        simp only [beq_iff_eq, hne, hx, if_false]
        cases l.splitOn a <;> simp

/-- The parts of a list have no other elements than the list. -/
theorem mem_of_mem_splitOn {α : Type} [DecidableEq α] {a x : α} {l part : List α}
    (hpart : part ∈ l.splitOn a) (hx : x ∈ part) : x ∈ l := by
  induction l generalizing part with
  | nil =>
      rw [List.splitOn_nil, List.mem_singleton] at hpart
      exact hpart ▸ hx
  | cons y l ih =>
      rw [List.splitOn_cons_eq_if_modifyHead] at hpart
      obtain ⟨first, rest, hsplit⟩ := List.exists_cons_of_ne_nil (List.splitOn_ne_nil a l)
      rw [hsplit] at hpart ih
      split at hpart
      · rcases List.mem_cons.mp hpart with rfl | hpart
        · cases hx
        · exact List.mem_cons_of_mem _ (ih hpart hx)
      · rw [List.modifyHead_cons] at hpart
        rcases List.mem_cons.mp hpart with rfl | hpart
        · rcases List.mem_cons.mp hx with rfl | hx
          · exact List.mem_cons_self
          · exact List.mem_cons_of_mem _ (ih List.mem_cons_self hx)
        · exact List.mem_cons_of_mem _ (ih (List.mem_cons_of_mem _ hpart) hx)

/-- Two conditions that agree on a list drop the same elements. -/
theorem dropWhile_congr {α : Type} {p q : α → Bool} {l : List α} (h : ∀ x ∈ l, p x = q x) :
    l.dropWhile p = l.dropWhile q := by
  induction l with
  | nil => rfl
  | cons x l ih =>
      rw [List.dropWhile_cons, List.dropWhile_cons, h x List.mem_cons_self,
        ih fun x' hx' => h x' (List.mem_cons_of_mem _ hx')]

/-- A line that is text, cut into its hops as a string, gives the text of its hops. -/
theorem split_of_toStr {line : HeaderValue} {s : String} (h : HeaderValue.toStr line = some s) :
    (Text.split s ',').map Text.trim = (HeaderValue.elements line).map asciiText := by
  obtain ⟨htext, rfl⟩ := toStr_eq_some_iff.mp h
  have hcomma : ∀ b : UInt8, Char.ofNat b.toNat = ',' ↔ b = 0x2c := fun b => (ofNat_of_byte b).1
  rw [Text.split, asciiText, String.toList_ofList, splitOn_map hcomma, HeaderValue.elements,
    List.map_map, List.map_map, List.map_map]
  refine List.map_congr_left fun part hpart => ?_
  have hspace : ∀ b ∈ part,
      (Text.isWhitespace ∘ fun b => Char.ofNat b.toNat) b = isOptionalSpace b :=
    fun b hb => (ofNat_of_byte b).2 (htext b (mem_of_mem_splitOn hpart hb))
  simp only [Function.comp_apply, Text.trim, String.toList_ofList, asciiText, List.rdropWhile,
    List.dropWhile_map, ← List.map_reverse]
  rw [dropWhile_congr hspace]
  congr 2
  refine congrArg List.reverse (dropWhile_congr fun b hb => ?_)
  exact hspace b ((List.dropWhile_sublist _).mem (List.mem_reverse.mp hb))

/-- The hops of a line that is text are text. -/
theorem toStr_of_mem_elements {line hop : HeaderValue} (h : (HeaderValue.toStr line).isSome)
    (hhop : hop ∈ HeaderValue.elements line) : HeaderValue.toStr hop = some (asciiText hop) := by
  obtain ⟨s, hs⟩ := Option.isSome_iff_exists.mp h
  obtain ⟨htext, -⟩ := toStr_eq_some_iff.mp hs
  obtain ⟨part, hpart, rfl⟩ := List.mem_map.mp hhop
  refine toStr_eq_some_iff.mpr ⟨fun b hb => htext b ?_, rfl⟩
  have hdropped := (List.rdropWhile_prefix isOptionalSpace
    (List.dropWhile isOptionalSpace part)).mem hb
  exact mem_of_mem_splitOn hpart ((List.dropWhile_sublist isOptionalSpace).mem hdropped)

/-- White space is cut off only once. -/
theorem trim_of_mem_elements {line hop : HeaderValue} (h : (HeaderValue.toStr line).isSome)
    (hhop : hop ∈ HeaderValue.elements line) : Text.trim (asciiText hop) = asciiText hop := by
  obtain ⟨s, hs⟩ := Option.isSome_iff_exists.mp h
  have hmem := List.mem_map_of_mem (f := asciiText) hhop
  rw [← split_of_toStr hs] at hmem
  obtain ⟨part, -, hpart⟩ := List.mem_map.mp hmem
  rw [← hpart, Text.trim_trim]

/-- The empty string comes from no bytes. -/
theorem asciiText_eq_empty_iff {bytes : List UInt8} : asciiText bytes = "" ↔ bytes = [] := by
  rw [← String.toList_inj, asciiText, String.toList_ofList]
  simp

/-- The first line of `X-Forwarded-For` is the one that is read. -/
theorem header_xForwardedFor (req : HttpRequest) :
    req.header "x-forwarded-for" =
      (HeaderMap.get req.headers "x-forwarded-for").bind HeaderValue.toStr := rfl

/-- There is no first line that is text, or it is read. -/
theorem header_cases (req : HttpRequest) :
    (req.header "x-forwarded-for" = none ∧
        ∀ line ∈ HeaderMap.get req.headers "x-forwarded-for", ¬ (HeaderValue.toStr line).isSome) ∨
      ∃ line, HeaderMap.get req.headers "x-forwarded-for" = some line ∧
        (HeaderValue.toStr line).isSome := by
  cases hheader : req.header "x-forwarded-for" with
  | none =>
      refine .inl ⟨rfl, fun line hline htext => ?_⟩
      rw [header_xForwardedFor, Option.mem_def.mp hline, Option.bind_some] at hheader
      rw [hheader] at htext
      cases htext
  | some s =>
      obtain ⟨line, hline, hs⟩ := Option.bind_eq_some_iff.mp hheader
      exact .inr ⟨line, hline, Option.isSome_of_eq_some hs⟩

namespace Inner

variable {inner : Inner} {req : HttpRequest} {peer : IpAddr}

/-- What is known of the hop of the client. -/
theorem of_clientHop {hops : List HeaderValue} {hop : HeaderValue}
    (h : inner.clientHop hops = some hop) :
    hop ≠ [] ∧ ∀ ip ∈ hopAddr hop, inner.trusts ip = false := by
  have hpasses := List.find?_some h
  simp only [passesOver, Bool.not_eq_true', Bool.or_eq_false_iff,
    decide_eq_false_iff_not] at hpasses
  refine ⟨hpasses.1, fun ip hip => ?_⟩
  have haddr := hpasses.2
  rw [Option.mem_def.mp hip, Option.any_some] at haddr
  exact haddr

/-- What is known of the hops where there is none of the client. -/
theorem of_clientHop_eq_none {hops : List HeaderValue} (h : inner.clientHop hops = none)
    {hop : HeaderValue} (hmem : hop ∈ hops) (hne : hop ≠ []) :
    ∃ ip ∈ hopAddr hop, inner.trusts ip = true := by
  have hpasses := List.find?_eq_none.mp h hop (List.mem_reverse.mpr hmem)
  simp only [passesOver, Bool.not_eq_true', Bool.not_eq_false, Bool.or_eq_true,
    decide_eq_true_eq, hne, false_or, Option.any_eq_true] at hpasses
  exact hpasses

/-- The loop stops at the first hop that is not passed over. -/
theorem walkHops_map {hops : List HeaderValue}
    (htext : ∀ hop ∈ hops, HeaderValue.toStr hop = some (asciiText hop)) :
    inner.walkHops peer (hops.map asciiText) =
      (hops.find? fun hop => !inner.passesOver hop).map
        fun hop => ((hopAddr hop).getD peer).text := by
  induction hops with
  | nil => rfl
  | cons hop hops ih =>
      have haddr : hopAddr hop = IpAddr.parse (asciiText hop) := by
        rw [hopAddr, htext hop List.mem_cons_self, Option.bind_some]
      have hrest := ih fun hop' hmem => htext hop' (List.mem_cons_of_mem _ hmem)
      rw [List.map_cons, walkHops, hrest]
      -- Empty hops and trusted addresses are passed over; what is no address ends the walk.
      by_cases hne : hop = []
      · rw [if_pos (asciiText_eq_empty_iff.mpr hne), List.find?_cons_of_neg]
        simp [passesOver, hne]
      · rw [if_neg (mt asciiText_eq_empty_iff.mp hne)]
        cases hparse : IpAddr.parse (asciiText hop) with
        | none =>
            rw [List.find?_cons_of_pos]
            · simp [haddr, hparse]
            · simp [passesOver, hne, haddr, hparse]
        | some ip =>
            dsimp only
            split
            next htrusts =>
              rw [List.find?_cons_of_neg]
              simp [passesOver, haddr, hparse, htrusts]
            next htrusts =>
              rw [List.find?_cons_of_pos]
              · simp [haddr, hparse]
              · simp [passesOver, hne, haddr, hparse, htrusts]

/-- The result for a peer that is not trusted. -/
theorem clientIp_of_untrusted (hproxies : inner.trustedProxies ≠ [])
    (hpeer : req.peerAddr = some peer) (htrusts : inner.trusts peer = false) :
    inner.clientIp req = peer.text := by
  rw [clientIp, if_pos hproxies, hpeer]
  exact if_pos htrusts

/-- The result without a line that is text. -/
theorem clientIp_of_header_eq_none (hproxies : inner.trustedProxies ≠ [])
    (hpeer : req.peerAddr = some peer) (hline : req.header "x-forwarded-for" = none) :
    inner.clientIp req = peer.text := by
  rw [clientIp, if_pos hproxies, hpeer, hline]
  exact ite_self _

/-- The result for a line that is text: the hop of the client in it, and else its first hop. -/
theorem clientIp_of_line (hproxies : inner.trustedProxies ≠ []) (hpeer : req.peerAddr = some peer)
    (htrusts : inner.trusts peer = true) {line : HeaderValue}
    (hline : HeaderMap.get req.headers "x-forwarded-for" = some line)
    (htext : (HeaderValue.toStr line).isSome) :
    (∀ hop ∈ inner.clientHop (HeaderValue.elements line),
        inner.clientIp req = ((hopAddr hop).getD peer).text) ∧
      (inner.clientHop (HeaderValue.elements line) = none →
        ∃ first ∈ HeaderValue.elements line, (HeaderValue.elements line).head? = some first ∧
          inner.clientIp req = if first = [] then peer.text else asciiText first) := by
  obtain ⟨s, hs⟩ := Option.isSome_iff_exists.mp htext
  have hheader : req.header "x-forwarded-for" = some s := by
    rw [header_xForwardedFor, hline, Option.bind_some, hs]
  have hwalk := @walkHops_map inner peer (HeaderValue.elements line).reverse fun hop hmem =>
    toStr_of_mem_elements htext (List.mem_reverse.mp hmem)
  rw [clientIp, if_pos hproxies, hpeer, hheader]
  dsimp only
  rw [if_neg (by simp [htrusts]), split_of_toStr hs, ← List.map_reverse, hwalk]
  constructor
  · intro hop hhop
    rw [show List.find? _ _ = some hop from hhop, Option.map_some]
  · -- The walk has passed over all hops, and the first one is taken.
    intro hnone
    rw [show List.find? _ _ = none from hnone, Option.map_none]
    obtain ⟨first, rest, helements⟩ : ∃ first rest, HeaderValue.elements line = first :: rest :=
      List.exists_cons_of_ne_nil fun h => List.splitOn_ne_nil 0x2c line (List.map_eq_nil_iff.mp h)
    have hmem : first ∈ HeaderValue.elements line := helements ▸ List.mem_cons_self
    refine ⟨first, hmem, by rw [helements, List.head?_cons], ?_⟩
    rw [helements, List.map_cons, firstHop, List.head?_cons, Option.bind_some,
      trim_of_mem_elements htext hmem]
    by_cases hempty : first = []
    · simp [hempty, asciiText_eq_empty_iff]
    · simp [hempty, asciiText_eq_empty_iff]

/-- For a trusted peer whose chain leads to an address, the result is right exactly if the first
line leads to the same address. -/
theorem clientIp_eq_text_iff (hproxies : inner.trustedProxies ≠ [])
    (hpeer : req.peerAddr = some peer) (htrusts : inner.trusts peer = true) {ip : IpAddr}
    (hip : inner.trusts ip = false) :
    inner.clientIp req = ip.text ↔
      ∃ line ∈ HeaderMap.get req.headers "x-forwarded-for", (HeaderValue.toStr line).isSome ∧
        ∃ hop' ∈ inner.clientHop (HeaderValue.elements line), hopAddr hop' = some ip := by
  have hne : peer.text ≠ ip.text := by
    intro h
    rw [IpAddr.text_inj h, hip] at htrusts
    cases htrusts
  rcases header_cases req with ⟨hheader, hunread⟩ | ⟨line, hline, htext⟩
  · rw [clientIp_of_header_eq_none hproxies hpeer hheader]
    refine iff_of_false hne ?_
    rintro ⟨line, hline, htext, -⟩
    exact hunread line hline htext
  · obtain ⟨hfound, hnone⟩ := clientIp_of_line hproxies hpeer htrusts hline htext
    cases hhop : inner.clientHop (HeaderValue.elements line) with
    | some hop =>
        rw [hfound hop hhop]
        constructor
        · intro heq
          refine ⟨line, hline, htext, hop, hhop, ?_⟩
          cases haddr : hopAddr hop with
          | none =>
              rw [haddr] at heq
              exact absurd heq hne
          | some ip' =>
              rw [haddr, Option.getD_some] at heq
              rw [IpAddr.text_inj heq]
        · rintro ⟨line', hline', -, hop', hhop', haddr⟩
          obtain rfl := Option.some.inj (hline.symm.trans hline')
          obtain rfl := Option.some.inj (hhop.symm.trans hhop')
          rw [haddr, Option.getD_some]
    | none =>
        obtain ⟨first, hmem, -, hresult⟩ := hnone hhop
        rw [hresult]
        refine iff_of_false (fun heq => ?_) ?_
        · split at heq
          next => exact hne heq
          next hempty =>
            -- The first hop of the line is a trusted address.
            obtain ⟨ip', haddr, htrusted⟩ := of_clientHop_eq_none hhop hmem hempty
            rw [hopAddr, toStr_of_mem_elements htext hmem, Option.bind_some, heq,
              IpAddr.parse_text, Option.mem_some_iff] at haddr
            rw [← haddr, hip] at htrusted
            cases htrusted
        · rintro ⟨line', hline', -, hop', hhop', -⟩
          obtain rfl := Option.some.inj (hline.symm.trans hline')
          exact nomatch hhop.symm.trans hhop'

/-- For a trusted peer the result is the peer exactly if the first line is not text or leads to the
peer. -/
theorem clientIp_eq_peer_iff (hproxies : inner.trustedProxies ≠ [])
    (hpeer : req.peerAddr = some peer) (htrusts : inner.trusts peer = true) :
    inner.clientIp req = peer.text ↔
      ∀ line ∈ HeaderMap.get req.headers "x-forwarded-for", (HeaderValue.toStr line).isSome →
        (∀ hop' ∈ inner.clientHop (HeaderValue.elements line), hopAddr hop' = none) ∧
          (inner.clientHop (HeaderValue.elements line) = none →
            ∀ first ∈ (HeaderValue.elements line).head?,
              first = [] ∨ HeaderValue.toStr first = some peer.text) := by
  rcases header_cases req with ⟨hheader, hunread⟩ | ⟨line, hline, htext⟩
  · refine iff_of_true (clientIp_of_header_eq_none hproxies hpeer hheader) ?_
    exact fun line hline htext => absurd htext (hunread line hline)
  · obtain ⟨hfound, hnone⟩ := clientIp_of_line hproxies hpeer htrusts hline htext
    simp only [hline, Option.mem_some_iff, forall_eq', htext, true_imp_iff]
    cases hhop : inner.clientHop (HeaderValue.elements line) with
    | some hop =>
        rw [hfound hop hhop]
        cases haddr : hopAddr hop with
        | none => simp [haddr]
        | some ip =>
            refine iff_of_false (fun heq => ?_) fun h => ?_
            · have huntrusted := (of_clientHop hhop).2 ip haddr
              rw [Option.getD_some] at heq
              rw [IpAddr.text_inj heq, htrusts] at huntrusted
              cases huntrusted
            · exact nomatch haddr.symm.trans (h.1 hop rfl)
    | none =>
        obtain ⟨first, hmem, hhead, hresult⟩ := hnone hhop
        have hfirst : (if first = [] then peer.text else asciiText first) = peer.text ↔
            first = [] ∨ HeaderValue.toStr first = some peer.text := by
          rw [toStr_of_mem_elements htext hmem, Option.some.injEq]
          by_cases hempty : first = [] <;> simp [hempty]
        rw [hresult, hhead, hfirst]
        simp

end Inner

/-- Behind trusted proxies, `client_ip` gives the hop of the client exactly if the first line of
`X-Forwarded-For` leads to the same address as the whole chain. -/
theorem reportsClient_iff (inner : Inner) (req : HttpRequest) (peer : IpAddr)
    (hproxies : inner.trustedProxies ≠ []) (hpeer : req.peerAddr = some peer) :
    inner.ReportsClient req peer ↔ inner.FirstLineTells req peer := by
  have hhop : inner.trusts peer = true → ∀ hop ∈ inner.clientHop (chain req),
      (inner.clientIp req = ((hopAddr hop).getD peer).text ↔
        match hopAddr hop with
        | some ip =>
            ∃ line ∈ HeaderMap.get req.headers "x-forwarded-for", (HeaderValue.toStr line).isSome ∧
              ∃ hop' ∈ inner.clientHop (HeaderValue.elements line), hopAddr hop' = some ip
        | none =>
            ∀ line ∈ HeaderMap.get req.headers "x-forwarded-for", (HeaderValue.toStr line).isSome →
              (∀ hop' ∈ inner.clientHop (HeaderValue.elements line), hopAddr hop' = none) ∧
                (inner.clientHop (HeaderValue.elements line) = none →
                  ∀ first ∈ (HeaderValue.elements line).head?,
                    first = [] ∨ HeaderValue.toStr first = some peer.text)) := by
    intro htrusts hop hhop
    cases haddr : hopAddr hop with
    | some ip =>
        exact Inner.clientIp_eq_text_iff hproxies hpeer htrusts
          ((Inner.of_clientHop hhop).2 ip haddr)
    | none => exact Inner.clientIp_eq_peer_iff hproxies hpeer htrusts
  constructor
  · exact fun h htrusts hop hmem => (hhop htrusts hop hmem).mp (h.trusted htrusts hop hmem)
  · intro h
    constructor
    case untrusted => exact Inner.clientIp_of_untrusted hproxies hpeer
    case trusted => exact fun htrusts hop hmem => (hhop htrusts hop hmem).mpr (h htrusts hop hmem)

/-- Two requests of one peer, with the same hops from the one of the client on, count for the same
address, whatever stands left of it. -/
theorem clientIp_eq_of_suffix {inner : Inner} {req req' : HttpRequest} {peer : IpAddr}
    (h : inner.ReportsClient req peer) (h' : inner.ReportsClient req' peer)
    (htrusts : inner.trusts peer = true) {hops left left' : List HeaderValue} {hop : HeaderValue}
    (hhop : inner.clientHop hops = some hop) (hchain : chain req = left ++ hops)
    (hchain' : chain req' = left' ++ hops) : inner.clientIp req = inner.clientIp req' := by
  rw [h.trusted htrusts hop (hchain ▸ inner.clientHop_append hhop),
    h'.trusted htrusts hop (hchain' ▸ inner.clientHop_append hhop)]

/-- The limiter behind proxies of one network. -/
def behindProxies : Inner := ⟨false, parseProxies ["10.0.0.0/8"]⟩

/-- A request with these lines of `X-Forwarded-For`, from a proxy. -/
def proxied (lines : List String) : HttpRequest :=
  ⟨"GET", "/", "", lines.map fun line => ("x-forwarded-for", Utf8.encode line),
    some (.v4 10 0 0 99), []⟩

/-- The client of a request with a single line is found. -/
theorem reportsClient_line :
    behindProxies.ReportsClient (proxied ["203.0.113.5, 198.51.100.7, 10.0.0.1"])
      (.v4 10 0 0 99) := by
  refine (reportsClient_iff behindProxies _ _ (by decide +kernel) rfl).mpr fun _ hop hhop => ?_
  obtain rfl : Utf8.encode "198.51.100.7" = hop :=
    Option.some.inj (Eq.trans (by decide +kernel) hhop)
  have haddr : hopAddr (Utf8.encode "198.51.100.7") = some (.v4 198 51 100 7) := by decide +kernel
  rw [haddr]
  refine ⟨_, rfl, by decide +kernel, _, hhop, haddr⟩

/-- The client is not always found: the first of two lines, which the client has sent itself,
decides. -/
theorem reportsClient_fails :
    ¬ ∀ (inner : Inner) (req : HttpRequest) (peer : IpAddr), inner.trustedProxies ≠ [] →
      req.peerAddr = some peer → inner.ReportsClient req peer := by
  intro hall
  have hreports := hall behindProxies (proxied ["203.0.113.9", "198.51.100.7"]) (.v4 10 0 0 99)
    (by decide +kernel) rfl
  have heq := hreports.trusted (by decide +kernel) (Utf8.encode "198.51.100.7") (by decide +kernel)
  exact absurd heq (by decide +kernel)

end RateLimit

end XiraNet
