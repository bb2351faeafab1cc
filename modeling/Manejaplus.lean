import Manejaplus.Interleaved.CountedFailures
import Manejaplus.Interleaved.Flags
import Manejaplus.Interleaved.OtpRaces
import Manejaplus.Products.Tenants
import Manejaplus.Sequential.Lockout
import Manejaplus.Sequential.OtpWindow
import Manejaplus.Sequential.SessionPolicy
import Manejaplus.Sequential.TokenPurpose
import Manejaplus.Sequential.TokenReaders
import Manejaplus.Transactions.OwnWrites
import Manejaplus.Tenancy.SchemaNames
import Manejaplus.Tenancy.TenantContext
import Manejaplus.Tenancy.Consistency
import Manejaplus.Sequential.Secrets
import Manejaplus.Sequential.SameAccount
import Manejaplus.Sequential.Renewals
import Manejaplus.Sequential.TokenUpdates
import Manejaplus.Transactions.Delivery
import Manejaplus.Sequential.RoleSets
import Manejaplus.Interleaved.Identity
import Manejaplus.Transactions.ManagerFields
import Manejaplus.Transactions.CallTrees
import Manejaplus.Tenancy.DeleteSchema
import Manejaplus.Tenancy.Entities
import Manejaplus.Tenancy.LongNames
import Manejaplus.Tenancy.RequestedNames
import Manejaplus.Sequential.RoleLists
import Manejaplus.Shared.Encryption
import Manejaplus.Shared.Mappers
import Manejaplus.Shared.Response
import Manejaplus.Tools.CheckEnviroments
import Manejaplus.Users.RecordLoops
import Manejaplus.Transactions.AccountsKept
import Manejaplus.Sequential.Onboarding
import Manejaplus.Tenancy.Housing
import Manejaplus.Products.Linearization
import Manejaplus.Users.Patterns
import Manejaplus.Transactions.Replies
import Manejaplus.Interleaved.RoleGrants
import Manejaplus.Transactions.Admission
