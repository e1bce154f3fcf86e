import ApiSmith.Client.Config

/-!
# The shared client

A process has one shared client. It is the one that was installed, or else it is made from the
environment when it is first asked for. Installing none makes room for a new one.
-/

namespace ApiSmith

structure Client where
  number : Nat
  config : ClientConfig
  /-- Whether its transport was set up. -/
  configured : Bool

structure SharedClient where
  /-- The client, if there is one. -/
  installed : Option Client
  /-- The number of the next client. -/
  next : Nat

namespace SharedClient

def install (p : SharedClient) (c : Option Client) : SharedClient := { p with installed := c }

/-- The shared client, made from the environment if there is none. -/
def get (p : SharedClient) (env : List (String × String)) : SharedClient × Client :=
  match p.installed with
  | some c => (p, c)
  | none =>
    let c : Client := ⟨p.next, .ofEnvironment env, false⟩
    (⟨some c, p.next + 1⟩, c)

@[simp] theorem get_install (p : SharedClient) (c : Client) (env : List (String × String)) :
    ((p.install (some c)).get env).2 = c := rfl

theorem get_get (p : SharedClient) (env : List (String × String)) :
    ((p.get env).1.get env).2 = (p.get env).2 := by
  rcases p with ⟨_ | c, n⟩ <;> rfl

end SharedClient

end ApiSmith
