import CommercePlayground.Payment.LedgerTheorems
import CommercePlayground.Inventory.LedgerTheorems
import CommercePlayground.Checkout.ConsumeTheorems
import CommercePlayground.Checkout.FenceTheorems
import CommercePlayground.Checkout.AttemptTheorems
import CommercePlayground.Checkout.ReconciliationTheorems
import CommercePlayground.Checkout.WakeTheorems
import CommercePlayground.System.FinalizationTheorems
import CommercePlayground.Fulfillment.EffectTheorems
import CommercePlayground.Orders.ProtocolTheorems
import CommercePlayground.Propagation.ValidatorTheorems
import CommercePlayground.Pricing.CacheTheorems
import CommercePlayground.Pricing.VersionTheorems
import CommercePlayground.Boundary.QuoteTheorems
import CommercePlayground.Boundary.StorefrontQuoteTheorems
import CommercePlayground.Boundary.PaidEventTheorems
import CommercePlayground.Outbox.PublisherTheorems
import CommercePlayground.Notifications.DeliveryTheorems
import CommercePlayground.Otlp.RoundTripTheorems
import CommercePlayground.Catalog.TimelineTheorems
import CommercePlayground.Catalog.ListingTheorems
import CommercePlayground.Catalog.CacheTheorems
import CommercePlayground.Catalog.ReadThroughTheorems
import CommercePlayground.Catalog.RecommendationTheorems
import CommercePlayground.Web.CartTheorems
import CommercePlayground.Cli.TestReportTheorems
import CommercePlayground.Propagation.TenantTheorems
import CommercePlayground.Propagation.DurableTheorems
import CommercePlayground.Propagation.SanitizeTheorems
import CommercePlayground.Propagation.ResolutionTheorems
import CommercePlayground.Propagation.GrammarTheorems
import CommercePlayground.Propagation.MetaTheorems
import CommercePlayground.Notifications.CarrierTheorems
import CommercePlayground.Boundary.Settlement
import CommercePlayground.Boundary.SettlementTheorems
import CommercePlayground.Boundary.ValidationTheorems
import CommercePlayground.Boundary.EventPaymentTheorems
import CommercePlayground.Checkout.ConvergenceTheorems
import CommercePlayground.Checkout.FailureTheorems
import CommercePlayground.Lib.Pattern
import CommercePlayground.Propagation.PercentTheorems
import CommercePlayground.Analytics.EventIdTheorems
import CommercePlayground.Cli.StampTheorems
import CommercePlayground.Cli.StitchingTheorems
import CommercePlayground.Cli.TraceGraphTheorems
import CommercePlayground.Storefront.RedactionTheorems
import CommercePlayground.Checkout.CartsTheorems
import CommercePlayground.Checkout.OrderCartsTheorems
import CommercePlayground.Catalog.SubscriptionTheorems
import CommercePlayground.System.MoneyTheorems
import CommercePlayground.System.SaleTheorems
import CommercePlayground.System.RedemptionTheorems
import CommercePlayground.System.CartTheorems
import CommercePlayground.System.TaskTheorems
import CommercePlayground.Fulfillment.DeliveryRouteTheorems
import CommercePlayground.Fulfillment.AnalyticsTheorems
import CommercePlayground.JourneyTheorems
import CommercePlayground.Storefront.RequestTheorems
