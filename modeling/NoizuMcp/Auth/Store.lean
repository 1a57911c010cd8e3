import NoizuMcp.Auth.Records

/-!
# The store contract

The callbacks of `Noizu.MCP.Auth.Server.Store` that the authorization server's
endpoints and the guard of assertions call, as data: a call with its arguments,
and the type of its answer. An adapter answers a call from its own state at a clock reading;
each call is one atomic step of that state.
-/

set_option autoImplicit false

namespace NoizuMcp.Auth

/-- A call of one store callback. Raw credentials are passed in the clear; the
adapter hashes them. -/
inductive StoreCall where
  | getClient (clientId : String)
  | putClient (client : Client)
  | putLoginState (state : String) (payload : Payload) (ttl : Nat)
  | getLoginState (state : String)
  | updateLoginState (state : String) (changes : Payload)
  | takeLoginState (state : String)
  | putAuthorizationCode (code : AuthorizationCode)
  | takeAuthorizationCode (code : String)
  | bindAuthorizationCodeFamily (code : String) (familyId : String)
  | putRefreshToken (token : RefreshToken)
  | getRefreshToken (token : String)
  | rotateRefreshToken (oldToken : String) (newToken : RefreshToken)
  | revokeRefreshToken (token : String)
  | revokeRefreshFamily (familyId : String)
  | revokeSubjectTokens (subject : String) (clientId : Option String)
  | getConsent (subject : String) (clientId : String)
  | putConsent (consent : Consent)
  | revokeConsent (subject : String) (clientId : String)
  | putAccessToken (token : AccessToken)
  | accessTokenRevoked (jti : String)
  | revokeAccessToken (jti : String)
  | claimAssertionJti (jti : String) (expiresAt : DateTime)
  deriving DecidableEq

/-- The answer of a callback: `:ok` or `{:ok, record}`, or why not. -/
@[reducible] def StoreCall.Answer : StoreCall → Type
  | .getClient _ => Except (StoreError Unit) Client
  | .putClient _ => Except (StoreError Unit) Client
  | .putLoginState _ _ _ => Except (StoreError Unit) Unit
  | .getLoginState _ => Except (StoreError Unit) Payload
  | .updateLoginState _ _ => Except (StoreError Unit) Payload
  | .takeLoginState _ => Except (StoreError Unit) Payload
  | .putAuthorizationCode _ => Except (StoreError Unit) Unit
  | .takeAuthorizationCode _ => Except (StoreError AuthorizationCode) AuthorizationCode
  | .bindAuthorizationCodeFamily _ _ => Except (StoreError Unit) Unit
  | .putRefreshToken _ => Except (StoreError Unit) Unit
  | .getRefreshToken _ => Except (StoreError Unit) RefreshToken
  | .rotateRefreshToken _ _ => Except (StoreError RefreshToken) RefreshToken
  | .revokeRefreshToken _ => Except (StoreError Unit) Unit
  | .revokeRefreshFamily _ => Except (StoreError Unit) Unit
  | .revokeSubjectTokens _ _ => Except (StoreError Unit) Unit
  | .getConsent _ _ => Except (StoreError Unit) Consent
  | .putConsent _ => Except (StoreError Unit) Unit
  | .revokeConsent _ _ => Except (StoreError Unit) Unit
  | .putAccessToken _ => Except (StoreError Unit) Unit
  | .accessTokenRevoked _ => Except (StoreError Unit) Bool
  | .revokeAccessToken _ => Except (StoreError Unit) Unit
  | .claimAssertionJti _ _ => Except (StoreError Unit) Unit

/-- A store adapter: its state and how it answers a call. `fresh` is the value
of `Store.generate_id/0`, should the call need one. -/
structure StoreAdapter where
  State : Type
  empty : State
  perform : (now : DateTime) → (fresh : String) → (call : StoreCall) → State → call.Answer × State

end NoizuMcp.Auth
