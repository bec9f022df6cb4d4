import PyChain.Crypto.Primitives

/-!
# Errors of the API
-/

namespace PyChain

open Foundation

namespace Api

structure ApiError where
  status : Nat
  code : String
  message : Str

/-- What a request ends with: an answer of the API, or an exception of the node. -/
inductive RequestError where
  | api (error : ApiError)
  | raised (error : PyError)

/-- What the node answers, or the exception it raises. -/
def ask {answer : Type} (reply : Except PyError answer) : Except RequestError answer :=
  match reply with
  | .ok value => .ok value
  | .error e => .error (.raised e)

theorem ask_eq_ok_iff {answer : Type} {reply : Except PyError answer} {value : answer} :
    ask reply = .ok value <-> reply = .ok value := by
  cases reply with
  | ok other => simp [ask]
  | error e => simp [ask]

end Api

end PyChain
