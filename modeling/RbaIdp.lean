import RbaIdp.Accountability
import RbaIdp.Activation
import RbaIdp.AddressText
import RbaIdp.AdminFlag
import RbaIdp.Admission
import RbaIdp.Api
import RbaIdp.ApplicationForm
import RbaIdp.Authorization
import RbaIdp.CallbackUrl
import RbaIdp.Config
import RbaIdp.Confirmation
import RbaIdp.ConsoleRouter
import RbaIdp.ConsoleViews
import RbaIdp.CredentialDoors
import RbaIdp.Custody
import RbaIdp.Db.Schema
import RbaIdp.Decision
import RbaIdp.Disabled
import RbaIdp.Encoding.Ascii
import RbaIdp.Encoding.Dict
import RbaIdp.Encoding.Query
import RbaIdp.Encoding.Url
import RbaIdp.Encoding.Utf8
import RbaIdp.ForwardedFor
import RbaIdp.Geo
import RbaIdp.HostedPage
import RbaIdp.Isolation
import RbaIdp.Lapse
import RbaIdp.Lifetimes
import RbaIdp.Lineage
import RbaIdp.Networks
import RbaIdp.Noninterference
import RbaIdp.OperatorDomains
import RbaIdp.Overlap
import RbaIdp.Ownership
import RbaIdp.PageSignals
import RbaIdp.PasskeyImport
import RbaIdp.Passkeys
import RbaIdp.PermissionIds
import RbaIdp.PolicyAge
import RbaIdp.PolicyCache
import RbaIdp.Probing
import RbaIdp.Reach
import RbaIdp.Redaction
import RbaIdp.Redirects
import RbaIdp.Relational.Assignment
import RbaIdp.Relational.Lifetime
import RbaIdp.Relational.Merge
import RbaIdp.Relational.Unwinding
import RbaIdp.RoleEditor
import RbaIdp.SelfContained
import RbaIdp.Separation
import RbaIdp.SignInBlindness
import RbaIdp.Signals
import RbaIdp.Simulation
import RbaIdp.SingleUse
import RbaIdp.Strangers
import RbaIdp.TenantCreation
import RbaIdp.Tickets
