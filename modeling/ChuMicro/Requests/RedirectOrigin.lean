import ChuMicro.Lib.LinePattern
import ChuMicro.Requests.Url

/-!
# Redirects and origins

A relative `Location` is put behind the scheme, host and port of the URL that was requested, and the
result is split again where its authority ends. The authority cannot run on into the location, as a
slash stands between them, and the host cannot have a part of it, as it has no delimiter itself.

## Main definitions

* `Requests.Url.SameOrigin` — the same scheme, host and port.
* `Requests.Url.Parsed` — what `parse_url` says of the URLs it accepts.

## Main results

* `Requests.parseUrl_parsed` — that it does say so.
* `Requests.parseUrl_origin` — a path behind an origin is parsed to that origin.
* `Requests.redirect_same_origin` — relative redirects stay at the origin.
-/

namespace ChuMicro.Requests

variable {zeros : List ℕ}

/-- The same scheme, host and port. -/
def Url.SameOrigin (u v : Url) : Prop := u.https = v.https ∧ u.host = v.host ∧ u.port = v.port

/-- The characters that end an authority. -/
def delimits (c : Char) : Bool := c = '/' || c = '?' || c = '#'

/-- **What `parse_url` says of the URLs it accepts**: a host without delimiters and colons, a port
in range, and a path that begins with a slash. -/
structure Url.Parsed (u : Url) : Prop where
  host_ne_nil : u.host ≠ []
  host_plain : ∀ c ∈ u.host, delimits c = false ∧ c ≠ ':'
  port_pos : 0 < u.port
  port_le : u.port ≤ 65535
  path_cons : ∃ rest, u.path = '/' :: rest

/-- The ports that `parse_url` accepts. -/
lemma parsePort_eq_ok {url portText : Str} {port : ℕ}
    (h : parsePort url portText zeros = .ok port) :
    0 < port ∧ port ≤ 65535 := by
  unfold parsePort at h
  split at h
  · cases h
  · split_ifs at h with hrange
    obtain rfl := Except.ok.inj h
    omega

/-- A path begins with a slash. -/
lemma originPath_cons (remainder : Str) : ∃ rest, originPath remainder = '/' :: rest := by
  cases remainder with
  | nil => exact ⟨[], rfl⟩
  | cons c rest =>
    by_cases hc : c = '/'
    · exact ⟨rest, by rw [originPath, if_pos hc, hc]⟩
    · exact ⟨c :: rest, by rw [originPath, if_neg hc]⟩

/-- What `parse_url` says of what stands behind the scheme. -/
lemma parseRest_parsed {url rest : Str} {https : Bool} {u : Url}
    (h : parseRest url https rest zeros = .ok u) : u.Parsed := by
  unfold parseRest at h
  simp only at h
  split_ifs at h with hhost
  have hplain : ∀ c ∈ (rest.takeWhile fun c => !delimits c).takeWhile (· ≠ ':'),
      delimits c = false ∧ c ≠ ':' := by
    intro c hc
    have hcolon := List.mem_takeWhile_imp hc
    have hdelim := List.mem_takeWhile_imp (List.takeWhile_prefix _ |>.subset hc)
    exact ⟨by simpa using hdelim, by simpa using hcolon⟩
  have hpath := originPath_cons (rest.dropWhile fun c => !delimits c)
  split at h
  · obtain rfl := Except.ok.inj h
    have hport : 0 < defaultPort https ∧ defaultPort https ≤ 65535 := by
      cases https <;> decide
    exact ⟨hhost, hplain, hport.1, hport.2, hpath⟩
  · next _ portText _ =>
    cases hport : parsePort url portText zeros with
    | error e =>
      rw [hport] at h
      cases h
    | ok port =>
      rw [hport] at h
      obtain rfl := Except.ok.inj h
      obtain ⟨hpos, hle⟩ := parsePort_eq_ok hport
      exact ⟨hhost, hplain, hpos, hle, hpath⟩

/-- **What `parse_url` says of the URLs it accepts.** -/
theorem parseUrl_parsed {url : Str} {u : Url} (h : parseUrl url zeros = .ok u) : u.Parsed := by
  unfold parseUrl at h
  split_ifs at h
  · exact parseRest_parsed h
  · exact parseRest_parsed h

/-- Nothing in a host with its port ends the authority. -/
lemma hostHeader_plain {u : Url} (hu : u.Parsed) : ∀ c ∈ u.hostHeader, delimits c = false := by
  intro c hc
  unfold Url.hostHeader at hc
  split_ifs at hc
  · exact (hu.host_plain c hc).1
  · rcases List.mem_append.mp hc with hc | hc
    · rcases List.mem_append.mp hc with hc | hc
      · exact (hu.host_plain c hc).1
      · obtain rfl : c = ':' := by simpa using hc
        decide
    · have hdigit : c ∈ Nat.toDigits 10 u.port := by
        rw [formatInt, if_neg (by omega)] at hc
        simpa using hc
      obtain ⟨d, hd, rfl⟩ := exists_of_mem_toDigits (by omega) (by omega) _ hdigit
      have hall : ∀ d < 16, delimits d.digitChar = false := by decide
      exact hall d hd

/-- **The authority ends at the path**, and its host at the colon. -/
lemma parseRest_origin {u : Url} (hu : u.Parsed) (url path : Str) :
    ∃ v, parseRest url u.https (u.hostHeader ++ '/' :: path) zeros = .ok v ∧ v.SameOrigin u := by
  have hslash : ∀ c, ('/' :: path).head? = some c → (!delimits c) = false := by
    intro c hc
    obtain rfl := Option.some.inj hc
    decide
  obtain ⟨htake, hdrop⟩ := LinePattern.takeWhile_append_of_forall
    (fun c hc => by simp [hostHeader_plain hu c hc] : ∀ c ∈ u.hostHeader, (!delimits c) = true) hslash
  have hcolon : ∀ c ∈ u.host, decide (c ≠ ':') = true := fun c hc => by
    simpa using (hu.host_plain c hc).2
  unfold parseRest
  simp only [← delimits.eq_1, htake, hdrop]
  by_cases hport : u.port = defaultPort u.https
  · have hheader : u.hostHeader = u.host ++ [] := by
      rw [Url.hostHeader, if_pos hport, List.append_nil]
    obtain ⟨hhost, hrest⟩ := LinePattern.takeWhile_append_of_forall
      hcolon (by simp : ∀ c, ([] : Str).head? = some c → decide (c ≠ ':') = false)
    rw [hheader, hhost, hrest, if_neg hu.host_ne_nil]
    exact ⟨_, rfl, rfl, rfl, hport.symm⟩
  · have hheader : u.hostHeader = u.host ++ ':' :: formatInt u.port := by
      rw [Url.hostHeader, if_neg hport, List.append_assoc]
      rfl
    obtain ⟨hhost, hrest⟩ := LinePattern.takeWhile_append_of_forall
      hcolon (by simp :
        ∀ c, (':' :: formatInt u.port).head? = some c → decide (c ≠ ':') = false)
    have hrange : ¬ ((u.port : ℤ) ≤ 0 ∨ (u.port : ℤ) > 65535) := by
      have := hu.port_pos
      have := hu.port_le
      omega
    have hread : parsePort url (formatInt u.port) zeros = .ok u.port := by
      rw [parsePort, pyInt_formatInt]
      simp only [hrange, if_false, Int.toNat_natCast]
    rw [hheader, hhost, hrest, if_neg hu.host_ne_nil]
    simp only [hread]
    exact ⟨_, rfl, rfl, rfl, rfl⟩

/-- **A path behind an origin is parsed to that origin.** -/
theorem parseUrl_origin {u : Url} (hu : u.Parsed) (path : Str) :
    ∃ v, parseUrl (u.origin ++ '/' :: path) zeros = .ok v ∧ v.SameOrigin u := by
  obtain ⟨v, hv, hsame⟩ := @parseRest_origin zeros _ hu (u.origin ++ '/' :: path) path
  refine ⟨v, ?_, hsame⟩
  cases hhttps : u.https with
  | true =>
    have horigin : u.origin ++ '/' :: path = "https://".toList ++ (u.hostHeader ++ '/' :: path) := by
      rw [Url.origin, hhttps]
      simp
    rw [hhttps] at hv
    rw [parseUrl, ← hv, horigin]
    simp
  | false =>
    have horigin : u.origin ++ '/' :: path = "http://".toList ++ (u.hostHeader ++ '/' :: path) := by
      rw [Url.origin, hhttps]
      simp
    rw [hhttps] at hv
    rw [parseUrl, ← hv, horigin]
    simp

/-- The directory of a path begins with a slash. -/
lemma basePath_cons {path rest : Str} (h : path = '/' :: rest) :
    ∃ base, basePath path = '/' :: base := by
  have hslash : '/' ∈ path.takeWhile (· ≠ '?') := by
    rw [h]
    simp
  have hlast : ¬ ∀ c ∈ path.takeWhile (· ≠ '?'), decide (c ≠ '/') = true := by
    intro hall
    simpa using hall '/' hslash
  have hne : basePath path ≠ [] := by
    rw [basePath, ne_eq, List.rdropWhile_eq_nil_iff]
    exact hlast
  -- the directory is a prefix of the path
  have hprefix : basePath path <+: '/' :: rest := by
    rw [← h]
    exact (List.rdropWhile_prefix _ _).trans (List.takeWhile_prefix _)
  cases hbase : basePath path with
  | nil => exact absurd hbase hne
  | cons c base =>
    rw [hbase] at hprefix
    obtain ⟨rfl, -⟩ := List.cons_prefix_cons.mp hprefix
    exact ⟨base, rfl⟩

/-- **Relative redirects stay at the origin.** A location that begins with neither of the schemes is
refused, or leads to the scheme, host and port that were requested, whichever decimal digits the
runtime knows. -/
theorem redirect_same_origin {currentUrl location : Str} {current : Url}
    (hcurrent : parseUrl currentUrl zeros = .ok current) (hhttp : ¬ "http://".toList <+: location)
    (hhttps : ¬ "https://".toList <+: location) :
    (∃ message, resolveRedirectUrl currentUrl location zeros = .error (.urlError message)) ∨
      ∃ url u, resolveRedirectUrl currentUrl location zeros = .ok url ∧ parseUrl url zeros = .ok u ∧
        u.SameOrigin current := by
  have hparsed := parseUrl_parsed hcurrent
  unfold resolveRedirectUrl
  rw [hcurrent, if_neg (not_or.mpr ⟨hhttp, hhttps⟩)]
  split_ifs with hempty hscheme hslash
  · exact Or.inl ⟨_, rfl⟩
  · exact Or.inl ⟨_, rfl⟩
  · right
    obtain ⟨path, rfl⟩ := hslash
    obtain ⟨u, hu, hsame⟩ := @parseUrl_origin zeros _ hparsed path
    exact ⟨current.origin ++ ("/".toList ++ path), u, rfl, hu, hsame⟩
  · right
    -- the directory of the path puts a slash behind the origin
    obtain ⟨rest, hrest⟩ := hparsed.path_cons
    obtain ⟨base, hbase⟩ := basePath_cons hrest
    obtain ⟨u, hu, hsame⟩ := @parseUrl_origin zeros _ hparsed (base ++ location)
    refine ⟨current.origin ++ basePath current.path ++ location, u, rfl, ?_, hsame⟩
    rw [hbase, List.append_assoc]
    exact hu

/-- A location is put behind the directory of the page with it. -/
theorem redirect_same_origin_sibling :
    parseUrl "http://a.b:8080/x/y?z".toList =
        .ok ⟨false, "a.b".toList, 8080, "/x/y?z".toList⟩ ∧
      ¬ "http://".toList <+: "c".toList ∧ ¬ "https://".toList <+: "c".toList ∧
      ((∃ message, resolveRedirectUrl "http://a.b:8080/x/y?z".toList "c".toList =
          .error (.urlError message)) ∨
        ∃ url u, resolveRedirectUrl "http://a.b:8080/x/y?z".toList "c".toList = .ok url ∧
          parseUrl url = .ok u ∧ u.SameOrigin ⟨false, "a.b".toList, 8080, "/x/y?z".toList⟩) := by
  have hcurrent : parseUrl "http://a.b:8080/x/y?z".toList =
      .ok ⟨false, "a.b".toList, 8080, "/x/y?z".toList⟩ := by decide +kernel
  exact ⟨hcurrent, by decide, by decide,
    redirect_same_origin hcurrent (by decide) (by decide)⟩

end ChuMicro.Requests
