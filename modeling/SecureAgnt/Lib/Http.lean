/-
A client that follows redirects.

An answer can name another URL, and the client goes on there, ten times at most.  After a
307 or a 308 it sends the request again with its body; after the other redirects it asks
with a `GET` and no body.  Which server redirects where is up to the servers.
-/
import Mathlib.Data.List.Chain
import Mathlib.Data.List.TakeWhile
import Mathlib.Logic.Relation

namespace SecureAgnt
namespace Http

inductive RedirectStatus where
  | movedPermanently
  | found
  | seeOther
  | temporaryRedirect
  | permanentRedirect
  deriving DecidableEq, Repr

/-- The request goes on with its method and its body. -/
def RedirectStatus.resends : RedirectStatus → Bool
  | .temporaryRedirect => true
  | .permanentRedirect => true
  | _ => false

/-- A redirect that was followed; `location` is resolved against the URL that answered. -/
structure Redirect where
  status : RedirectStatus
  location : String
  deriving DecidableEq, Repr

/-- The redirects one request was led along. -/
structure Hops where
  list : List Redirect
  length_le : list.length ≤ 10

namespace Hops

def none : Hops := ⟨[], Nat.zero_le _⟩

/-- The request is sent again once. -/
def resend (location : String) : Hops where
  list := [⟨.temporaryRedirect, location⟩]
  length_le := Nat.succ_le_succ (Nat.zero_le 9)

/-- The URLs to which the body was sent again. -/
def resent (hops : Hops) : List String :=
  (hops.list.takeWhile fun r => r.status.resends).map (·.location)

/-- The URLs that got the body of a request to `url`, in order. -/
def receivers (hops : Hops) (url : String) : List String := url :: hops.resent

/-- The servers redirect as `redirects` says. -/
def Along (redirects : String → String → Prop) (url : String) (hops : Hops) : Prop :=
  (hops.receivers url).IsChain redirects

variable {redirects : String → String → Prop} {hops : Hops} {url v : String}

theorem along_none : none.Along redirects url := List.isChain_singleton url

theorem along_resend (h : redirects url v) : (resend v).Along redirects url :=
  List.isChain_pair.mpr h

theorem mem_receivers : v ∈ hops.receivers url ↔ v = url ∨ v ∈ hops.resent := List.mem_cons

/-- What holds of the first URL and passes along every redirect holds of all who got the body. -/
theorem Along.induction {p : String → Prop} (halong : hops.Along redirects url) (hfirst : p url)
    (hstep : ∀ u v, redirects u v → p u → p v) : ∀ v ∈ hops.receivers url, p v := by
  intro v hv
  rcases mem_receivers.mp hv with rfl | hresent
  · exact hfirst
  · exact List.IsChain.cons_induction p hops.resent halong (fun u v => hstep u v) hfirst v hresent

/-- A URL that the body was sent again to is one that a server redirected to. -/
theorem Along.redirected (halong : hops.Along redirects url) :
    ∀ v ∈ hops.resent, ∃ u, redirects u v := by
  unfold Along receivers at halong
  generalize hops.resent = resent at halong
  induction resent generalizing url with
  | nil => exact fun v hv => nomatch hv
  | cons next rest ih =>
    obtain ⟨hfirst, hrest⟩ := List.isChain_cons_cons.mp halong
    intro v hv
    rcases List.mem_cons.mp hv with rfl | hv
    · exact ⟨url, hfirst⟩
    · exact ih hrest v hv

/-- The body goes only where the redirects lead from the first URL. -/
theorem Along.reached (halong : hops.Along redirects url) :
    ∀ v ∈ hops.receivers url, Relation.ReflTransGen redirects url v :=
  halong.induction .refl fun _ _ hstep hpath => hpath.tail hstep

end Hops

end Http
end SecureAgnt
